import AnimatedCanvas.FrameQueue.Script
import Mathlib

namespace AnimatedCanvas.FrameHost

theorem weight_eq_sums (m : FrameMachine) :
    m.weight = (m.agenda.map FrameTask.weight).sum + (m.queue.pending.map (·.2.weight)).sum := by
  rw [weight, List.sum_eq_foldr, List.sum_eq_foldr, List.foldr_map, List.foldr_map]

theorem weight_call (action : FrameAction) : action.call.weight = action.weight := by
  cases action <;>
    simp [FrameAction.call, FrameCall.weight, FrameScript.weight, FrameAction.weight]

theorem weights_eq_sum (actions : List FrameAction) :
    FrameAction.weights actions =
      (((actions.map FrameAction.call).map FrameTask.act).map FrameTask.weight).sum := by
  induction actions with
  | nil => rfl
  | cons a rest ih => simp [FrameAction.weights, FrameTask.weight, ih, weight_call]

theorem weight_act_lt (m : FrameMachine) (call : FrameCall FrameScript) :
    (m.act call).weight < call.weight + m.weight := by
  cases call with
  | request script =>
      simp only [act, weight_eq_sums, FrameQueue.request, FrameCall.weight, List.map_append, List.sum_append,
        List.map_singleton, List.sum_singleton]
      omega
  | cancel handle =>
      have kept : ((m.queue.pending.filter (·.1 != handle)).map (·.2.weight)).sum ≤
          (m.queue.pending.map (·.2.weight)).sum :=
        (List.filter_sublist.map _).sum_le_sum fun _ _ => Nat.zero_le _
      simp only [act, weight_eq_sums, FrameQueue.cancel, FrameCall.weight]
      omega
  | tick time =>
      simp only [act, beginTick, weight_eq_sums, FrameQueue.beginTick, FrameCall.weight, List.map_append,
        List.map_map, Function.comp_def, FrameTask.weight, List.sum_append, List.map_nil, List.sum_nil]
      omega
  | run frames =>
      cases frames with
      | zero => simp [act, FrameCall.weight]
      | succ frames =>
          simp only [act, weight_eq_sums, FrameTask.weight, FrameCall.weight, List.map_cons, List.sum_cons]
          omega

theorem weight_step_lt (m : FrameMachine) (some : m.agenda ≠ []) : m.step.weight < m.weight := by
  match hm : m.agenda with
  | [] => exact absurd hm some
  | .act call :: agenda =>
      have lighter := weight_act_lt { m with agenda } call
      simp only [step, hm]
      simp only [weight_eq_sums, hm, List.map_cons, List.sum_cons, FrameTask.weight] at lighter ⊢
      omega
  | .fire tick handle time script :: agenda =>
      simp only [step, fire, weight_eq_sums, hm, List.map_cons, List.map_append, List.sum_cons, List.sum_append,
        FrameTask.weight, FrameScript.weight, weights_eq_sum, FrameCallback.calls]
      omega

theorem agenda_steps (n : Nat) (m : FrameMachine) (enough : m.weight ≤ n) :
    (steps n m).agenda = [] := by
  induction n generalizing m with
  | zero =>
      by_contra some
      have := weight_step_lt m some
      omega
  | succ n ih =>
      unfold steps
      by_cases none : m.agenda = []
      · simp [none]
      · have lighter := weight_step_lt m none
        simpa [none] using ih m.step (by omega)

theorem agenda_finish (m : FrameMachine) : m.finish.agenda = [] :=
  agenda_steps _ m (Nat.le_refl _)

end AnimatedCanvas.FrameHost
