import AnimatedCanvas.Page.Mount
import AnimatedCanvas.Proofs.Stage.FrameLoop

namespace AnimatedCanvas

def Mount.performer (m : Mount) : Performer (Animation Generator) :=
  { name := "", key := m.key, animator := m.animator }

namespace Page

variable {p : Page} {m : Mount} {due : List Nat}

def stage (p : Page) : Stage (Animation Generator) :=
  { surfaces := [], performers := p.mounts.map Mount.performer, queue := p.frames,
    lastKey := p.lastKey }

theorem performer_mem (member : m ∈ p.mounts) : m.performer ∈ p.stage.performers :=
  List.mem_map_of_mem member

theorem keys_stage (p : Page) : p.stage.keys = p.mounts.map (·.key) := by
  simp [stage, Stage.keys, Function.comp_def, Mount.performer]

theorem mount?_eq_some (h : p.stage.Orderly due) {key : Nat} :
    p.mount? key = some m ↔ m ∈ p.mounts ∧ m.key = key :=
  find?_key_eq_some (p.keys_stage ▸ h.keys_nodup)

theorem mem_modifyMount_self (member : m ∈ p.mounts)
    (f : Animator (Animation Generator) → Animator (Animation Generator)) :
    { m with animator := f m.animator } ∈ (p.modifyMount m.key f).mounts :=
  List.mem_map.mpr ⟨m, member, by simp⟩

theorem mem_modifyMount_of_ne {key : Nat} (member : m ∈ p.mounts) (different : m.key ≠ key)
    (f : Animator (Animation Generator) → Animator (Animation Generator)) :
    m ∈ (p.modifyMount key f).mounts :=
  List.mem_map.mpr ⟨m, member, by simp [different]⟩

theorem stage_modifyMount (p : Page) (key : Nat)
    (f : Animator (Animation Generator) → Animator (Animation Generator)) :
    (p.modifyMount key f).stage = p.stage.modify key f := by
  simp only [stage, modifyMount, Stage.modify, List.map_map]
  congr 2
  funext m
  by_cases own : m.key = key <;> simp [own, Mount.performer]

theorem destroyMount_eq (p : Page) (m : Mount) :
    p.destroyMount m = ({ p with
      listeners := p.listeners.filter (·.owner != m.key)
      frames := (m.animator.pending.map p.frames.cancel).getD p.frames } : Page).modifyMount m.key
        Animator.destroy := by
  unfold destroyMount
  cases m.animator.pending <;> rfl

theorem stage_destroyMount (p : Page) (m : Mount) :
    (p.destroyMount m).stage = p.stage.destroyPerformer m.performer := by
  rw [destroyMount_eq, stage_modifyMount]
  unfold Stage.destroyPerformer
  cases pending : m.animator.pending <;> simp [Mount.performer, pending, stage]

theorem stage_dropMount (p : Page) (m : Mount) :
    (p.dropMount m).stage = p.stage.dropPerformer m.performer := by
  rw [Stage.dropPerformer, ← stage_destroyMount]
  simp [dropMount, stage, List.filter_map, Function.comp_def, Mount.performer]

theorem owners_destroyMount (h : p.stage.Orderly []) (member : m ∈ p.mounts) :
    (p.destroyMount m).frames.owners = p.frames.owners.filter (· != m.key) := by
  rw [destroyMount_eq]
  cases h.standing m.performer (performer_mem member) with
  | waiting handle running alive pending queued absent =>
      have pending : m.animator.pending = some handle := pending
      simp only [pending]
      exact h.fresh.owners_cancel queued
  | called handle running alive pending queued taken given present => cases present
  | stopped still pending queued ended =>
      have pending : m.animator.pending = none := pending
      simp only [pending]
      exact (FrameQueue.filter_owners queued).symm

def added (p : Page) (canvas : Nat) (animator : Animator (Animation Generator)) : Mount :=
  { key := p.lastKey + 1, canvas, animator := animator.start (p.frames.last + 1) }

theorem addMount_of_requests (requests : p.frameFailure = none) (canvas : Nat)
    (animator : Animator (Animation Generator)) :
    p.addMount canvas animator = (p.added canvas animator, { p with
      frames := (p.frames.request (p.lastKey + 1)).2
      mounts := p.mounts ++ [p.added canvas animator]
      lastKey := p.lastKey + 1 }) := by
  simp [addMount, requestFrame, requests, FrameQueue.request, added]

theorem stage_addMount (h : p.stage.Orderly due) (requests : p.frameFailure = none) (canvas : Nat)
    {animator : Animator (Animation Generator)} (start : animator.canStart = true) :
    (p.addMount canvas animator).2.stage = p.stage.entered "" animator true := by
  -- No other animation has the next key, so that starting it changes none of them.
  have others : p.stage.performers.map (·.changed (p.lastKey + 1) (·.start (p.frames.last + 1))) =
      p.stage.performers := by
    refine (List.map_congr_left fun o member => Performer.changed_of_ne ?_ _).trans (List.map_id _)
    have := h.keys_le o member
    simp only [stage] at this
    omega
  rw [addMount_of_requests requests, Stage.entered, if_pos rfl,
    Stage.startPerformer_of_canStart start]
  have performers : (p.mounts ++ [p.added canvas animator]).map Mount.performer =
      (p.stage.performers ++ [p.stage.newcomer "" animator]).map
        (·.changed (p.lastKey + 1) (·.start (p.frames.last + 1))) := by
    rw [List.map_append, List.map_append, others]
    simp [stage, Stage.newcomer, Performer.changed, added, Mount.performer]
  simp only [stage, performers]
  rfl

theorem runFrame_of_draws (requests : p.frameFailure = none)
    (h : m.animator.draws ((p.element? m.canvas).any (·.isConnected)) = true) :
    p.runFrame m = ({ p with
      tree := p.tree.modifyState m.canvas
        (·.record (m.animator.frameCommands.flatMap (DrawCommand.calls m.animator.size)))
      frames := (p.frames.request m.key).2 } : Page).modifyMount m.key
        (·.drawn (p.frames.last + 1)) := by
  simp [runFrame, h, requestFrame, modifyElement, requests, FrameQueue.request]

theorem runFrame_of_not_draws
    (h : m.animator.draws ((p.element? m.canvas).any (·.isConnected)) = false) :
    p.runFrame m = p.modifyMount m.key Animator.skipped := by
  simp [runFrame, h]

end Page
end AnimatedCanvas
