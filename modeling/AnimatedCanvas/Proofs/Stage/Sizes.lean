import AnimatedCanvas.Proofs.Field.Operation
import AnimatedCanvas.Proofs.Stage.Turns

/-!
# A field has the size of its surface

The layout of a surface, the size that an animator has measured and the size of its field are kept
apart. `Animator.Fits` says that the last two agree and what the particles were drawn for; every turn
of an animator and every resizing keeps it, so that a layout reaches both sizes or none.
-/

namespace AnimatedCanvas

open Relation (ReflTransGen)

variable {γ : Type} [Sampler γ]

namespace ParticleField

variable {f : ParticleField γ}

def Operation.Continues : Operation → Prop
  | .resize _ => False
  | .clear => False
  | _ => True

theorem size_operate {operation : Operation} (continues : operation.Continues) :
    (f.operate operation).size = f.size := by
  cases operation with
  | pointerMove position => exact (f.pointerMove_eq position).2.1
  | pointerLeave => rfl
  | click position => exact (f.click_eq position).2.1
  | update => rfl
  | resize size => cases continues
  | clear => cases continues

/-- The particles were generated for a size, and have only gone on since. -/
def GeneratedFor (size : Size) (f : ParticleField γ) : Prop :=
  ∃ (blank : ParticleField γ) (operations : List Operation), blank.size = size ∧
    (∀ operation ∈ operations, operation.Continues) ∧ f = blank.populate.play operations

theorem generatedFor_populate (blank : ParticleField γ) : blank.populate.GeneratedFor blank.size :=
  ⟨blank, [], rfl, List.forall_mem_nil _, rfl⟩

theorem GeneratedFor.operate {size : Size} (h : f.GeneratedFor size) {operation : Operation}
    (continues : operation.Continues) : (f.operate operation).GeneratedFor size := by
  obtain ⟨blank, operations, same, each, rfl⟩ := h
  refine ⟨blank, operations ++ [operation], same, ?_, ?_⟩
  · exact List.forall_mem_append.2 ⟨each, List.forall_mem_singleton.2 continues⟩
  · simp [play]

end ParticleField

namespace Animator

variable {config : FieldConfig} {a a' : Animator (Animation γ)} {f : ParticleField γ}

structure Fits (config : FieldConfig) (a : Animator (Animation γ)) (f : ParticleField γ) : Prop where
  scene : a.scene = .field f
  config : f.config = config
  size : f.size = a.size.clamped
  generated : a.isDestroyed = false → f.GeneratedFor a.size.clamped

theorem Fits.keeps (h : a.Fits config f) (operation : ParticleField.Operation)
    (continues : operation.Continues) (scene : a'.scene = .field (f.operate operation))
    (size : a'.size = a.size) (destroyed : a'.isDestroyed = a.isDestroyed) :
    a'.Fits config (f.operate operation) where
  scene := scene
  config := (f.config_operate operation).trans h.config
  size := (ParticleField.size_operate continues).trans (size ▸ h.size)
  generated := by
    rw [size, destroyed]
    exact fun alive => (h.generated alive).operate continues

theorem Fits.withScene (h : a.Fits config f) (operation : ParticleField.Operation)
    (continues : operation.Continues) {g : Animation γ → Animation γ}
    (same : g (.field f) = .field (f.operate operation)) :
    ∃ f', (a.withScene g).Fits config f' ∧ (a.withScene g).size = a.size := by
  cases alive : a.isDestroyed with
  | true =>
      rw [withScene_of_destroyed alive]
      exact ⟨f, h, rfl⟩
  | false =>
      rw [withScene_of_alive alive]
      exact ⟨_, h.keeps operation continues (by rw [← same, h.scene]) rfl rfl, rfl⟩

theorem Fits.turn (h : a.Fits config f) (turn : a.Turn a') :
    ∃ f', a'.Fits config f' ∧ a'.size = a.size := by
  cases turn with
  | start handle idle => exact ⟨f, ⟨h.scene, h.config, h.size, h.generated⟩, rfl⟩
  | destroy =>
      cases alive : a.isDestroyed with
      | true =>
          rw [destroy_of_destroyed alive]
          exact ⟨f, h, rfl⟩
      | false =>
          rw [destroy_of_alive alive]
          exact ⟨f.clear, ⟨by rw [h.scene]; rfl, h.config, h.size, nofun⟩, rfl⟩
  | pointerMove position => exact h.withScene (.pointerMove position) trivial rfl
  | pointerLeave => exact h.withScene .pointerLeave trivial rfl
  | click position => exact h.withScene (.click position) trivial rfl
  | drawn handle alive running =>
      have scene : (a.drawn handle).scene = .field (f.operate .update) := by
        rw [drawn, h.scene]
        rfl
      exact ⟨_, h.keeps .update trivial scene rfl rfl, rfl⟩
  | skipped => exact ⟨f, ⟨h.scene, h.config, h.size, h.generated⟩, rfl⟩

theorem Fits.turns (h : a.Fits config f) (turns : ReflTransGen Turn a a') :
    ∃ f', a'.Fits config f' ∧ a'.size = a.size := by
  induction turns with
  | refl => exact ⟨f, h, rfl⟩
  | tail _ turn ih =>
      obtain ⟨f', fits, same⟩ := ih
      obtain ⟨f'', fits', same'⟩ := fits.turn turn
      exact ⟨f'', fits', same'.trans same⟩

theorem Fits.resize (h : a.Fits config f) (size : Size) :
    ∃ f', (a.resize size).Fits config f' ∧
      (a.resize size).size = if a.isDestroyed then a.size else size := by
  cases alive : a.isDestroyed with
  | true =>
      rw [resize_of_destroyed alive]
      exact ⟨f, h, rfl⟩
  | false =>
      rw [resize_of_alive alive]
      refine ⟨f.resize size, ⟨?_, h.config, rfl, fun _ => ?_⟩, rfl⟩
      · rw [h.scene]
        rfl
      · exact ParticleField.generatedFor_populate { f with size := size.clamped }

theorem fits_create {size : Size} {random : γ}
    (created : ParticleField.create config size random = .ok f) (surface : String) :
    (create surface (.field f) size).Fits config f := by
  let blank : ParticleField γ :=
    { config, size := size.clamped, particles := [], waves := [], pointer := none, random, frame := 0 }
  have populated : f = blank.populate :=
    ParticleField.eq_of_create (ParticleField.validate_of_create created) created
  rw [populated]
  exact ⟨rfl, rfl, rfl, fun _ => ParticleField.generatedFor_populate blank⟩

theorem Fits.head?_frameCommands (h : a.Fits config f) {color : Color} {alpha : Float}
    (backdrop : config.backdrop = .fade color alpha) :
    a.frameCommands.head? =
      some (.fillRect .origin a.size.clamped (color.withAlpha alpha)) := by
  have frame : a.frameCommands = f.update.render := by
    rw [frameCommands, h.scene]
    rfl
  have same : f.update.config.backdrop = .fade color alpha := by
    rw [← backdrop, ← h.config]
    rfl
  rw [frame, ParticleField.render, List.head?_cons, ParticleField.backdropCommand, same, ← h.size]
  rfl

end Animator

def Moment.resizes {α : Type} (p : Performer α) : Moment α → Bool
  | .operate (.ask name .resize) => name == p.name && !p.animator.isDestroyed
  | _ => false

namespace Ticking

variable {t : Ticking (Animation γ)} {p : Performer (Animation γ)} {name id : String} {key : Nat}
  {config : FieldConfig} {f : ParticleField γ} {recorder : Recorder}

structure Fitted (t : Ticking (Animation γ)) (name id : String) (key : Nat) (config : FieldConfig) :
    Prop where
  orderly : t.stage.Orderly t.due
  apart : t.stage.NamesApart
  offers : t.stage.Offers id
  shown : ∃ p ∈ t.stage.performers, p.name = name ∧ p.key = key ∧ p.animator.surface = id ∧
    ∃ f, p.animator.Fits config f

theorem exists_fits_step (orderly : t.stage.Orderly t.due) (apart : t.stage.NamesApart)
    (member : p ∈ t.stage.performers)
    (surface : t.stage.recorder? p.animator.surface = some recorder) (fits : p.animator.Fits config f)
    {moment : Moment (Animation γ)} (keeps : moment.Keeps p.name) :
    ∃ p' ∈ (t.step moment).stage.performers, p.Becomes p' ∧
      (∃ f', p'.animator.Fits config f') ∧
      p'.animator.size = if moment.resizes p then recorder.layout else p.animator.size := by
  -- Its own resizing measures the layout; anything else comes to turns, which leave the size alone.
  by_cases own : moment = .operate (.ask p.name .resize)
  · subst own
    have found := (apart.performer?_eq_some orderly).mpr ⟨member, rfl⟩
    obtain ⟨f', fits', size⟩ := fits.resize recorder.layout
    refine ⟨_, mem_step_resize found surface, ⟨rfl, rfl, ?_⟩, ⟨f', fits'⟩, ?_⟩
    · exact (Animator.surface_resize recorder.layout p.animator).symm
    · rw [size]
      cases alive : p.animator.isDestroyed <;> simp [Moment.resizes, alive]
  · obtain ⟨p', member', becomes, turns⟩ := holds_step orderly member keeps own
    obtain ⟨f', fits', size⟩ := fits.turns turns
    have other : moment.resizes p = false := by
      unfold Moment.resizes
      split
      next name =>
        have different : name ≠ p.name := fun same => own (same ▸ rfl)
        simp [different]
      next => rfl
    exact ⟨p', member', becomes, ⟨f', fits'⟩, by rw [size, other]; rfl⟩

theorem Fitted.step (h : t.Fitted name id key config) {moment : Moment (Animation γ)}
    (keeps : moment.Keeps name) : (t.step moment).Fitted name id key config := by
  obtain ⟨orderly, apart, offers, p, member, rfl, rfl, rfl, f, fits⟩ := h
  obtain ⟨recorder, surface⟩ := offers
  obtain ⟨p', member', becomes, fits', -⟩ :=
    exists_fits_step orderly apart member surface fits keeps
  exact ⟨orderly_step orderly moment, namesApart_step apart moment,
    offers_step ⟨recorder, surface⟩ moment, p', member', becomes.name.symm, becomes.key.symm,
    becomes.surface.symm, fits'⟩

theorem Fitted.run (h : t.Fitted name id key config) {moments : List (Moment (Animation γ))}
    (keeps : ∀ moment ∈ moments, moment.Keeps name) : (t.run moments).Fitted name id key config := by
  induction moments generalizing t with
  | nil => exact h
  | cons moment moments ih =>
      obtain ⟨now, later⟩ := List.forall_mem_cons.mp keeps
      exact ih (h.step now) later

theorem exists_fits_mount (orderly : t.stage.Orderly t.due) {random : γ}
    {mounted : Stage (Animation γ)}
    (done : t.stage.mount name id (fun size =>
      (ParticleField.create config size random).map Animation.field) = .ok mounted) :
    ∃ recorder, mounted.recorder? id = some recorder ∧ ∃ p ∈ mounted.performers, p.name = name ∧
      p.key = t.stage.lastKey + 1 ∧ p.animator.surface = id ∧
      p.animator.size = recorder.layout ∧ ∃ f, p.animator.Fits config f := by
  obtain ⟨recorder, scene, surface, built, rfl⟩ := Stage.mount_eq_ok.mp done
  obtain ⟨f, created, rfl⟩ : ∃ f, ParticleField.create config recorder.layout random = .ok f ∧
      Animation.field f = scene := by
    cases made : ParticleField.create config recorder.layout random with
    | ok f =>
        rw [made] at built
        exact ⟨f, rfl, Except.ok.inj built⟩
    | error e =>
        rw [made] at built
        cases built
  let fresh := Animator.create id (Animation.field f) recorder.layout
  obtain ⟨p, entered, becomes, turns⟩ :=
    Stage.holds_startPerformer (t.stage.newcomer_mem name fresh)
  obtain ⟨f', fits, size⟩ := (Animator.fits_create created id).turns turns
  have member : p ∈ (t.stage.add name fresh true).performers := by
    refine Stage.mem_add entered fun old found own => ?_
    exact orderly.key_ne_newcomer (Stage.mem_of_performer? found).1 (own.symm.trans becomes.key.symm)
  refine ⟨recorder, ?_, p, member, becomes.name.symm, becomes.key.symm, becomes.surface.symm, size, f',
    fits⟩
  exact (Stage.recorder?_congr (Stage.surfaces_add t.stage name fresh true) id).trans surface

/-- From its mounting on, whatever happens on the stage, the field of an animator has the size that
the animator has measured, its particles were generated for that size, and a frame begins with the
backdrop over that size. Only being resized while it lives moves the two sizes, both to the layout
that the surface has at that moment. -/
theorem sizes_never_apart (surfaces : List (String × Option Recorder))
    (before : List (Moment (Animation γ))) (name id : String) (config : FieldConfig) (random : γ)
    (mounted : Stage (Animation γ)) :
    let t := (start surfaces).run before
    let build (size : Size) := (ParticleField.create config size random).map Animation.field
    t.stage.mount name id build = .ok mounted →
    ∀ after : List (Moment (Animation γ)), (∀ moment ∈ after, moment.Keeps name) →
      let later := (t.step (.operate (.mount name id build))).run after
      ∃ (p : Performer (Animation γ)) (f : ParticleField γ) (recorder : Recorder),
        later.stage.performer? name = some p ∧ p.key = t.stage.lastKey + 1 ∧
        p.animator.surface = id ∧ later.stage.recorder? id = some recorder ∧
        p.animator.scene = .field f ∧ f.config = config ∧ f.size = p.animator.size.clamped ∧
        (p.animator.isDestroyed = false → f.GeneratedFor p.animator.size.clamped) ∧
        (after = [] → p.animator.size = recorder.layout) ∧
        (∀ color alpha, config.backdrop = .fade color alpha → p.animator.frameCommands.head? =
          some (.fillRect .origin p.animator.size.clamped (color.withAlpha alpha))) ∧
        (later.stage.fire p.key).recorder? id =
          some (if p.animator.draws recorder.isAttached then recorder.draw p.animator.frameCommands
            else recorder) ∧
        ∀ moment : Moment (Animation γ), moment.Keeps name →
          ∃ (p' : Performer (Animation γ)) (f' : ParticleField γ),
            (later.step moment).stage.performer? name = some p' ∧ p'.animator.scene = .field f' ∧
            p'.animator.size = (if moment.resizes p then recorder.layout else p.animator.size) ∧
            f'.size = if moment.resizes p then recorder.layout.clamped else f.size := by
  intro t build done after keeps later
  have orderly : t.stage.Orderly t.due := orderly_run (Stage.orderly_withSurfaces surfaces) before
  have apart : t.stage.NamesApart := namesApart_run (Stage.namesApart_withSurfaces surfaces) before
  have stage : (t.step (.operate (.mount name id build))).stage = mounted := by
    simp only [step, Stage.operate, done]
  obtain ⟨first, offered, newcomer, there, named, keyed, onto, measured, shown⟩ :=
    exists_fits_mount orderly done
  rw [← stage] at offered there
  have fitted : (t.step (.operate (.mount name id build))).Fitted name id (t.stage.lastKey + 1)
      config :=
    ⟨orderly_step orderly _, namesApart_step apart _, ⟨first, offered⟩, newcomer, there, named, keyed,
      onto, shown⟩
  obtain ⟨orderly', apart', ⟨recorder, surface⟩, p, member, own, key, placed, f, fits⟩ :=
    fitted.run keeps
  subst own placed
  have found := (apart'.performer?_eq_some orderly').mpr ⟨member, rfl⟩
  refine ⟨p, f, recorder, found, key, rfl, surface, fits.scene, fits.config, fits.size,
    fits.generated, ?_, fun color alpha backdrop => fits.head?_frameCommands backdrop,
    orderly'.recorder?_fire member surface, fun moment keeps => ?_⟩
  · rintro rfl
    have alone : newcomer = p := fitted.orderly.eq_of_key there member (keyed.trans key.symm)
    rw [← alone, measured]
    exact congrArg Recorder.layout (Option.some.inj (offered.symm.trans surface))
  · obtain ⟨p', member', becomes, ⟨f', fits'⟩, size⟩ :=
      exists_fits_step orderly' apart' member surface fits keeps
    have found' := ((namesApart_step apart' moment).performer?_eq_some
      (orderly_step orderly' moment)).mpr ⟨member', becomes.name.symm⟩
    refine ⟨p', f', found', fits'.scene, size, ?_⟩
    rw [fits'.size, size, fits.size]
    split <;> rfl

theorem sizes_never_apart_shared :
    let build (size : Size) :=
      (ParticleField.create .quantum size (⟨1, 2, 3, 4⟩ : Generator)).map Animation.field
    let diagram (size : Size) := (Stage.blankDiagram size).map Animation.circuit
    let t : Ticking (Animation Generator) := (start [("fx", some (.create ⟨200.0, 100.0⟩))]).run
      [.operate (.mount "first" "fx" diagram), .take 16.0]
    let after : List (Moment (Animation Generator)) :=
      [.operate (.setLayout "fx" ⟨-5.0, 50.5⟩), .operate (.ask "first" .resize), .fire,
        .operate (.ask "bg" .resize), .operate (.tick 32.0), .operate (.ask "bg" .destroy),
        .operate (.setLayout "fx" ⟨9.0, 9.0⟩), .operate (.ask "bg" .resize)]
    let later := (t.step (.operate (.mount "bg" "fx" build))).run after
    t.due = [1] ∧ (∃ mounted, t.stage.mount "bg" "fx" build = .ok mounted) ∧
      (∀ moment ∈ after, moment.Keeps "bg") ∧
      ∃ (p : Performer (Animation Generator)) (f : ParticleField Generator),
        later.stage.performer? "bg" = some p ∧ p.animator.scene = .field f ∧
        f.size = p.animator.size.clamped ∧
        p.animator.frameCommands.head? =
          some (.fillRect .origin p.animator.size.clamped (Color.black.withAlpha 0.05)) := by
  intro build diagram t after later
  have valid : FieldConfig.quantum.validate = .ok () := rfl
  obtain ⟨mounted, done⟩ : ∃ mounted, t.stage.mount "bg" "fx" build = .ok mounted := by
    have surface : t.stage.recorder? "fx" = some (.create ⟨200.0, 100.0⟩) := rfl
    have created := ParticleField.create_of_valid valid ⟨200.0, 100.0⟩ (⟨1, 2, 3, 4⟩ : Generator)
    have built := congrArg (Except.map Animation.field) created
    exact ⟨_, Stage.mount_eq_ok.mpr ⟨_, _, surface, built, rfl⟩⟩
  have kept : ∀ moment ∈ after, moment.Keeps "bg" := by
    simp [after, Moment.Keeps, Stage.Operation.Keeps]
  obtain ⟨p, f, -, found, -, -, -, scene, -, size, -, -, backdrop, -⟩ :=
    sizes_never_apart _ _ "bg" "fx" .quantum _ mounted done after kept
  exact ⟨rfl, ⟨mounted, done⟩, kept, p, f, found, scene, size, backdrop .black 0.05 rfl⟩

end Ticking
end AnimatedCanvas
