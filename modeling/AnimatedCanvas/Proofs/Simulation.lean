import AnimatedCanvas.Proofs.Field.Operation
import AnimatedCanvas.Proofs.Stage.Independence
import AnimatedCanvas.Simulation

namespace AnimatedCanvas

open Stage

namespace Solo

variable {α : Type}

structure Lively (v : Solo α) : Prop where
  running : v.isRunning = true
  alive : v.isDestroyed = false
  attached : v.recorder.isAttached = true

theorem lively_create (scene : α) (size layout : Size) :
    (create scene size (.create layout) true).Lively := ⟨rfl, rfl, rfl⟩

variable [Scene α]

theorem Lively.pointerMove {v : Solo α} (h : v.Lively) (position : Point) :
    v.perform (.pointerMove position) = { v with scene := Scene.pointerMove position v.scene } := by
  simp [perform, h.alive]

theorem Lively.click {v : Solo α} (h : v.Lively) (position : Point) :
    v.perform (.click position) = { v with scene := Scene.click position v.scene } := by
  simp [perform, h.alive]

theorem Lively.tick {v : Solo α} (h : v.Lively) :
    v.tick.Lively ∧ v.tick.scene = Scene.step v.scene ∧
      v.tick.recorder.commands = v.recorder.commands ++ Scene.draw (Scene.step v.scene) := by
  have ticked : v.tick =
      { v with
        scene := Scene.step v.scene
        frames := v.frames + 1
        recorder := v.recorder.draw (Scene.draw (Scene.step v.scene)) } := by
    simp [Solo.tick, h.running, h.attached]
  rw [ticked]
  exact ⟨⟨h.running, h.alive, h.attached⟩, rfl, Recorder.commands_draw _ _⟩

end Solo

namespace Simulation

variable {γ : Type} [Sampler γ] [Trigonometry] {stage : Stage (ParticleField γ)} {key : Nat}
  {v : Solo (ParticleField γ)}

structure Animates (stage : Stage (ParticleField γ)) (key : Nat) (v : Solo (ParticleField γ)) : Prop where
  shows : stage.Shows surface key surface v
  orderly : stage.Orderly []
  lively : v.Lively

theorem Animates.ask (h : Animates stage key v) (request : Request)
    (lively : (v.perform request).Lively) :
    Animates (ask request stage) key (v.perform request) := by
  have keeps : (Operation.ask surface request : Operation (ParticleField γ)).Keeps surface := trivial
  have asked := h.shows.operate h.orderly nofun keeps trivial
  rw [Operation.solo?, if_pos rfl] at asked
  have same : Simulation.ask request stage = stage.operate (.ask surface request) := by
    simp only [Simulation.ask, operate]
    cases stage.performer? surface <;> rfl
  rw [same]
  exact ⟨asked, h.orderly.operate _, lively⟩

theorem Animates.click (h : Animates stage key v) (position : Point) :
    Animates (Simulation.ask (.click position) stage) key
      { v with scene := v.scene.click position } := by
  have clicked := h.ask (.click position)
  rw [h.lively.click] at clicked
  exact clicked ⟨h.lively.running, h.lively.alive, h.lively.attached⟩

theorem Animates.pointerMove (h : Animates stage key v) (position : Point) :
    Animates (Simulation.ask (.pointerMove position) stage) key
      { v with scene := (v.scene.pointerMove position).2 } := by
  have moved := h.ask (.pointerMove position)
  rw [h.lively.pointerMove] at moved
  exact moved ⟨h.lively.running, h.lively.alive, h.lively.attached⟩

theorem Animates.clicks (h : Animates stage key v) (clicks : List Point) :
    ∃ w, Animates (clicks.foldl (fun stage position => Simulation.ask (.click position) stage) stage) key w ∧
      w.scene = v.scene.play (clicks.map .click) ∧ w.recorder = v.recorder := by
  induction clicks generalizing stage v with
  | nil => exact ⟨v, h, rfl, rfl⟩
  | cons position clicks ih => exact ih (h.click position)

def pointing (s : Simulation γ) : List ParticleField.Operation :=
  (s.pointer.map .pointerMove).toList ++ s.clicks.map .click

theorem Animates.pointed (h : Animates stage key v) (s : Simulation γ) :
    ∃ w, Animates (s.pointed stage) key w ∧ w.scene = v.scene.play s.pointing ∧
      w.recorder = v.recorder := by
  unfold Simulation.pointed pointing
  cases s.pointer with
  | none => exact h.clicks s.clicks
  | some position => exact (h.pointerMove position).clicks s.clicks

omit [Sampler γ] [Trigonometry] in
theorem Animates.drawCalls (h : Animates stage key v) :
    Simulation.drawCalls stage = v.recorder.commands.length := by
  obtain ⟨p, recorder, plays, -, -, same, rfl⟩ := h.shows
  have found := plays.surface
  rw [same] at found
  rw [Simulation.drawCalls, found]
  rfl

theorem Animates.frame (h : Animates stage key v) (empty : v.recorder.commands = []) :
    Simulation.drawCalls (Stage.run 1 stage) = v.scene.update.render.length ∧
      ∃ w, Animates ((Stage.run 1 stage).modifyRecorder surface Recorder.drain) key w ∧
        w.scene = v.scene.update ∧ w.recorder.commands = [] := by
  obtain ⟨lively, scene, drawn⟩ := h.lively.tick
  have ticked : Animates (Stage.run 1 stage) key v.tick :=
    ⟨h.shows.tick h.orderly nofun stage.queue.nextTime, h.orderly.tick _, lively⟩
  have drained := ticked.shows.modifyRecorder surface Recorder.drain
  rw [if_pos rfl] at drained
  rw [empty, List.nil_append] at drawn
  exact ⟨ticked.drawCalls.trans (congrArg List.length drawn), _,
    ⟨drained, ticked.orderly.modifyRecorder surface Recorder.drain,
      ⟨lively.running, lively.alive, lively.attached⟩⟩, scene, Recorder.commands_drain _⟩

theorem Animates.draw (h : Animates stage key v) (empty : v.recorder.commands = [])
    (frames calls : Nat) :
    ∃ w, Animates (Simulation.draw frames calls stage).2 key w ∧
      w.scene = v.scene.play (List.replicate frames .update) ∧
      (Simulation.draw frames calls stage).1 =
        if frames = 0 then calls else w.scene.render.length := by
  induction frames generalizing stage v calls with
  | zero => exact ⟨v, h, rfl, rfl⟩
  | succ frames ih =>
      obtain ⟨counted, u, animates, stepped, empty⟩ := h.frame empty
      obtain ⟨w, animates, played, drawn⟩ := ih animates empty _
      rw [stepped] at played
      refine ⟨w, animates, played, drawn.trans ?_⟩
      cases frames with
      | zero => exact counted.trans (congrArg (fun f => f.render.length) played.symm)
      | succ frames => rfl

def operations (s : Simulation γ) : List ParticleField.Operation :=
  s.pointing ++ List.replicate s.frames .update

omit [Sampler γ] [Trigonometry] in
theorem mem_operations {s : Simulation γ} {operation : ParticleField.Operation}
    (member : operation ∈ s.operations) :
    (∃ position, s.pointer = some position ∧ operation = .pointerMove position) ∨
      (∃ position ∈ s.clicks, operation = .click position) ∨ operation = .update := by
  simp only [operations, pointing, List.mem_append, Option.mem_toList, Option.map_eq_some_iff,
    List.mem_map, List.mem_replicate] at member
  rcases member with (⟨position, there, rfl⟩ | ⟨position, there, rfl⟩) | ⟨-, rfl⟩
  · exact .inl ⟨position, there, rfl⟩
  · exact .inr (.inl ⟨position, there, rfl⟩)
  · exact .inr (.inr rfl)

theorem exists_stage (s : Simulation γ) (valid : s.config.validate = .ok ()) :
    ∃ stage key v, s.stage = .ok stage ∧ Animates stage key v ∧ v.recorder.commands = [] ∧
      ParticleField.create s.config s.size s.random = .ok v.scene := by
  obtain ⟨start, created⟩ : ∃ start, ParticleField.create s.config s.size s.random = .ok start :=
    ⟨_, ParticleField.create_of_valid valid s.size s.random⟩
  let blank : Stage (ParticleField γ) := Stage.empty.addSurface surface s.size
  let animator : Animator (ParticleField γ) := .create surface start s.size
  have orderly : blank.Orderly [] := orderly_withSurfaces [(surface, some (.create s.size))]
  have mounted : s.stage = .ok (blank.add surface animator true) :=
    mount_eq_ok.mpr ⟨.create s.size, start, rfl, created, rfl⟩
  have shows : (blank.add surface animator true).Shows surface (blank.lastKey + 1) surface
      (.create start s.size (.create s.size) true) :=
    Shows.add orderly (namesApart_withSurfaces _) animator true rfl rfl (List.forall_mem_nil _)
  have animates : Animates _ _ _ :=
    ⟨shows, orderly.add surface rfl rfl true, Solo.lively_create start s.size s.size⟩
  exact ⟨_, _, _, mounted, animates, Recorder.commands_create s.size, created⟩

/-- A simulation of a valid configuration runs. Its statistics are those of the field alone, and its
draw calls are the commands of the last frame, if there is any. -/
theorem run_eq_alone (s : Simulation γ) (valid : s.config.validate = .ok ()) :
    ∃ start, ParticleField.create s.config s.size s.random = .ok start ∧
      let f := start.play s.operations
      s.run = .ok
        { drawCalls := if s.frames = 0 then 0 else f.render.length, stats := f.stats } := by
  obtain ⟨stage, key, v, mounted, animates, empty, created⟩ := s.exists_stage valid
  obtain ⟨u, pointed, pointing, kept⟩ := animates.pointed s
  obtain ⟨w, drawn, played, counted⟩ := pointed.draw (kept ▸ empty) s.frames 0
  obtain ⟨p, recorder, plays, named, -, -, rfl⟩ := drawn.shows
  have found := plays.performer? drawn.orderly
  have scene : p.animator.scene = v.scene.play s.operations := by
    change (p.animator.solo recorder).scene = _
    rw [played, pointing, operations]
    exact List.foldl_append.symm
  rw [named] at found
  change _ = if s.frames = 0 then 0 else p.animator.scene.render.length at counted
  rw [scene] at counted
  refine ⟨v.scene, created, ?_⟩
  simp only [Simulation.run, mounted, bind, Except.bind, found, scene, counted]
  rfl

theorem run_eq (s : Simulation γ) (valid : s.config.validate = .ok ()) :
    ∃ start drawCalls, ParticleField.create s.config s.size s.random = .ok start ∧
      s.run = .ok { drawCalls, stats := (start.play s.operations).stats } := by
  obtain ⟨start, created, ran⟩ := s.run_eq_alone valid
  exact ⟨start, _, created, ran⟩

end Simulation
end AnimatedCanvas
