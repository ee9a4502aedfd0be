import Resumption.Proofs.Trampoline.Reachable
import Resumption.Proofs.Effect.Reachable
import Resumption.Proofs.Effect.StoredNode

/-!
# No queue has an empty half

* `queues_compact` : the queues that are made by pushes, concatenations and pops are compact, and so are
  those in which the continuations of a trampoline or of a program wait.

Descriptions come by their queues in three ways: binds push, attaching pushes and concatenates, and feeding
a value pops. That these keep a queue compact at every depth is shown for queues alone.
-/

namespace Resumption

open ContinuationQueue

/-- Each `Obtained` queue is `Compact`. The `waiting` of a bound trampoline is obtained, and so is that of a
bound program over any `RelayingVocabulary`, whatever steps led to it. -/
theorem queues_compact :
    (∀ (κ : Type) (q : ContinuationQueue κ), q.Obtained → q.Compact) ∧
      (∀ (C : Codes) (α : Type) (cl : Closures C α (Trampoline C α)) head waiting last,
        Trampoline.Reachable cl (.bound head waiting last) → waiting.Obtained ∧ waiting.Compact) ∧
      ∀ (S : Signature) [Vocabulary S] [RelayingVocabulary S] (C : Codes) (α : Type)
        (cl : Closures C α (Program S C α)) head waiting last,
        Program.Reachable cl (.bound head waiting last) → waiting.Obtained ∧ waiting.Compact := by
  refine ⟨fun κ q h => h.compact, fun C α cl head waiting last h => ?_,
    fun S _ _ C α cl head waiting last h => ?_⟩
  · have hwaiting : waiting.Obtained := h.obtained_queue
    exact ⟨hwaiting, hwaiting.compact⟩
  · have hwaiting : waiting.Obtained := h.sound.queue
    exact ⟨hwaiting, hwaiting.compact⟩

/-- `Vocabulary.map` on `Fork` adds to the number of the node and relays what comes after it. -/
instance : RelayingVocabulary Program.Fork where
  leadsTo_of_map {α β f op op' count b} hmap hb := by
    cases op with
    | command c next => cases c
    | query number resume =>
      obtain ⟨es, k, left, hleft, hmap⟩ := Action.endsWith_bind_iff.1 hmap
      obtain ⟨es', k', right, hright, hmap⟩ := Action.endsWith_bind_iff.1 hmap
      obtain rfl := Action.endsWith_pure_iff.1 hmap
      obtain ⟨answer, count', hb⟩ := hb
      obtain rfl := Action.endsWith_pure_iff.1 hb
      cases answer with
      | false =>
        obtain ⟨es, k, a, ha, hb⟩ := Action.endsWith_bind_iff.1 (Action.endsWith_iff.2 ⟨es, k, hleft⟩)
        exact ⟨a, ⟨false, _, Action.endsWith_iff.2 ⟨es, k, ha⟩⟩, _, hb⟩
      | true =>
        obtain ⟨es, k, a, ha, hb⟩ := Action.endsWith_bind_iff.1 (Action.endsWith_iff.2 ⟨es', k', hright⟩)
        exact ⟨a, ⟨true, _, Action.endsWith_iff.2 ⟨es, k, ha⟩⟩, _, hb⟩

/-- Three numbers in a queue, of which the first is popped after a turn; and thunks under two binds, once
they have given descriptions with a bind of their own. -/
theorem queues_compact_three :
    (∃ rest, (((empty.push 1).push 2).push 3).pop? = some (1, rest) ∧ rest.Compact) ∧
      (joined (single (.call ())) (single (.call ())) : Trampoline.Waiting ⟨Unit, Unit, Unit⟩ Nat).Compact ∧
      (joined (single (.call ())) (single (.call ())) :
        Program.Waiting Console ⟨Unit, Unit, Unit⟩ Nat).Compact ∧
      (joined (single (.call ())) (single (.call ())) :
        Program.Waiting Program.Fork ⟨Unit, Unit, Unit⟩ Nat).Compact := by
  obtain ⟨hqueue, htrampoline, hprogram⟩ := queues_compact
  have hdeferred (S : Signature) [Vocabulary S] [RelayingVocabulary S] :
      (joined (single (.call ())) (single (.call ())) :
        Program.Waiting S ⟨Unit, Unit, Unit⟩ Nat).Compact := by
    let given : Program S ⟨Unit, Unit, Unit⟩ Nat := .flatMap (.pure 1) ()
    let cl := Program.givingClosures given .pure
    have hgiven : Program.Reachable cl given := .bind (.pure 1) nofun
    have hbound : Program.Reachable cl (.flatMap (.flatMap (.defer ()) ()) ()) :=
      .bind (.bind (.defer _) nofun) nofun
    have hx : (cl.force ()).EndsWith 0 given := rfl
    exact (hprogram _ _ _ cl (.value 1) _ (.call ()) (.advance hbound rfl hx hgiven rfl)).2
  refine ⟨?_, ?_, hdeferred Console, hdeferred Program.Fork⟩
  · have hobtained : (((empty.push 1).push 2).push 3).Obtained := ((Obtained.empty.push 1).push 2).push 3
    have hpop : (((empty.push 1).push 2).push 3).pop? = some (1, joined (single 2) (single 3)) := by
      rw [pop?_of_turned rfl, pop?_of_oldest rfl]
      rfl
    exact ⟨_, hpop, hqueue Nat _ (hobtained.rest hpop)⟩
  · let given : Trampoline ⟨Unit, Unit, Unit⟩ Nat := .flatMap (.pure 1) ()
    let cl := Program.givingClosures given .pure
    have hgiven : Trampoline.Reachable cl given := .bind (.pure 1) nofun
    have hbound : Trampoline.Reachable cl (.flatMap (.flatMap (.suspend ()) ()) ()) :=
      .bind (.bind (.suspend _) nofun) nofun
    have hx : (cl.force ()).EndsWith 0 given := rfl
    exact (htrampoline _ _ cl (.value 1) _ (.call ()) (.force hbound rfl hx hgiven rfl rfl)).2

end Resumption
