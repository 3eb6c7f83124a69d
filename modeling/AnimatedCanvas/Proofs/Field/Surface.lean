import AnimatedCanvas.Proofs.Binary64.Distance
import AnimatedCanvas.Proofs.Field.Population
import AnimatedCanvas.Proofs.Span

/-!
# Particles stay on the surface

A frame leaves every particle between the edges, with speeds that are numbers (`stays_on_surface`). A
speed may overflow, but then so do the coordinate and the distance from the pointer, and no push is
added to it; where there is a push, the direction has a bounded length and the force is at most one.
-/

namespace AnimatedCanvas

open Binary64

/-- Sine and cosine are finite where the angle is. -/
def Trigonometry.Total [Trigonometry] : Prop :=
  ∀ angle : Float, angle.isFinite = true →
    (Trigonometry.sin angle).isFinite = true ∧ (Trigonometry.cos angle).isFinite = true

def Point.IsFinite (p : Point) : Prop := p.x.isFinite = true ∧ p.y.isFinite = true

namespace Particle

/-- The particle is between the edges, and its speeds are numbers. -/
structure OnSurface (size : Size) (p : Particle) : Prop where
  left : 0.0 ≤ p.x
  right : p.x ≤ size.width
  top : 0.0 ≤ p.y
  bottom : p.y ≤ size.height
  speedX : p.speedX.isNaN = false
  speedY : p.speedY.isNaN = false

structure Movable (p : Particle) : Prop where
  position : p.position.IsFinite
  speedX : p.speedX.isNaN = false
  speedY : p.speedY.isNaN = false

variable {p : Particle} {size : Size}

theorem OnSurface.movable (h : p.OnSurface size) (clamped : IsClamped size) : p.Movable where
  position := by
    have x := le_iff.mp h.left
    have y := le_iff.mp h.top
    exact ⟨isFinite_of_between x.2.1 rfl clamped.1.isFinite x.2.2 (le_iff.mp h.right).2.2,
      isFinite_of_between y.2.1 rfl clamped.2.isFinite y.2.2 (le_iff.mp h.bottom).2.2⟩
  speedX := h.speedX
  speedY := h.speedY

/-! ## The push -/

theorem value_force {radius distance : Float} (hr : radius.isFinite = true)
    (hd : distance.isFinite = true) (nonneg : 0 ≤ value distance)
    (near : value distance < value radius) :
    ((radius - distance) / radius).isFinite = true ∧
      0 ≤ value ((radius - distance) / radius) ∧ value ((radius - distance) / radius) ≤ 1 := by
  obtain ⟨number, between⟩ := between_sub hr hd
  have rest := between.nonneg (by linarith)
  have atMost : value (radius - distance) ≤ value radius :=
    (between radius (isNaN_of_isFinite hr)).2 (by linarith)
  have finite := isFinite_of_nonneg_of_le number rest hr atMost
  have positive : 0 < value radius := nonneg.trans_lt near
  obtain ⟨number, between⟩ := between_div finite hr positive.ne'
  have lower := between.nonneg (div_nonneg rest positive.le)
  have upper := (between 1.0 rfl).2
  rw [value_one] at upper
  have le_one := upper (div_le_one_of_le₀ atMost positive.le)
  exact ⟨isFinite_of_nonneg_of_le number lower rfl (le_one.trans_eq value_one.symm), lower, le_one⟩

theorem isNaN_push {difference distance force strength : Float} (hx : difference.isFinite = true)
    (hd : distance.isFinite = true) (positive : 0 < value distance)
    (near : |value difference| ≤ 2 * value distance) (hf : force.isFinite = true)
    (nonneg : 0 ≤ value force) (le_one : value force ≤ 1) (hs : strength.isFinite = true) :
    (difference / distance * force * strength).isNaN = false := by
  have two : (2.0 : Float).isFinite = true := rfl
  obtain ⟨number, between⟩ := between_div hx hd positive.ne'
  have quotient : |value difference / value distance| ≤ 2 := by
    rw [abs_div, abs_of_pos positive]
    exact (div_le_iff₀ positive).mpr near
  rw [← value_two] at quotient
  have direction := between.abs_le_value rfl quotient
  obtain ⟨number, between⟩ := between_mul (isFinite_of_abs_le number two direction) hf
  have product : |value (difference / distance) * value force| ≤ value 2.0 := by
    rw [abs_mul, abs_of_nonneg nonneg]
    exact (mul_le_of_le_one_right (abs_nonneg _) le_one).trans direction
  have pull := isFinite_of_abs_le number two (between.abs_le_value rfl product)
  exact (between_mul pull hs).1

theorem isNaN_push_of_near {dx dy radius strength : Float} (hx : dx.isNaN = false)
    (hy : dy.isNaN = false) (hr : radius.isFinite = true) (hs : strength.isFinite = true) :
    let distance := (dx * dx + dy * dy).sqrt
    (distance ≥ radius || distance == 0.0) = false →
      (dx.isFinite = true ∧ dy.isFinite = true) ∧
        (dx / distance * ((radius - distance) / radius) * strength).isNaN = false ∧
        (dy / distance * ((radius - distance) / radius) * strength).isNaN = false := by
  intro distance near
  obtain ⟨number, nonneg⟩ := isNaN_distance hx hy
  obtain ⟨close, apart⟩ : ¬ distance ≥ radius ∧ ¬ (distance == 0.0) = true := by
    simpa only [Bool.or_eq_false_iff, decide_eq_false_iff_not, Bool.not_eq_true] using near
  have less : value distance < value radius :=
    not_le.mp fun far => close (le_iff.mpr ⟨isNaN_of_isFinite hr, number, far⟩)
  have nonzero : value distance ≠ 0 := fun zero => apart (beq_iff.mpr ⟨number, rfl, zero⟩)
  -- The distance is below a finite radius, and an infinite difference would have made it infinite.
  have finite : distance.isFinite = true :=
    isFinite_of_nonneg_of_le number nonneg hr less.le
  have finiteX : dx.isFinite = true := by
    rcases isFinite_or_isInfinite hx with finite | ⟨s, infinite⟩
    · exact finite
    · exact absurd finite (by simp [distance, (infinite.distance hy).1.isFinite])
  have finiteY : dy.isFinite = true := by
    rcases isFinite_or_isInfinite hy with finite | ⟨s, infinite⟩
    · exact finite
    · exact absurd finite (by simp [distance, (infinite.distance hx).2.isFinite])
  obtain ⟨boundX, boundY⟩ := abs_le_two_mul_distance finiteX finiteY nonzero
  obtain ⟨force, least, most⟩ := value_force hr finite nonneg less
  have positive := nonneg.lt_of_ne' nonzero
  exact ⟨⟨finiteX, finiteY⟩, isNaN_push finiteX finite positive boundX force least most hs,
    isNaN_push finiteY finite positive boundY force least most hs⟩

theorem isNaN_pushFrom {source : Point} {radius strength : Float} (hs : source.IsFinite)
    (hr : radius.isFinite = true) (strong : strength.isFinite = true)
    (x : p.x.isNaN = false) (y : p.y.isNaN = false) (speedX : p.speedX.isNaN = false)
    (speedY : p.speedY.isNaN = false) (alongX : p.x.isFinite = true → p.speedX.isFinite = true)
    (alongY : p.y.isFinite = true → p.speedY.isFinite = true) :
    (p.pushFrom source radius strength).speedX.isNaN = false ∧
      (p.pushFrom source radius strength).speedY.isNaN = false := by
  have pushed := isNaN_push_of_near (isNaN_sub x hs.1) (isNaN_sub y hs.2) hr strong
  unfold pushFrom
  dsimp only
  split
  next => exact ⟨speedX, speedY⟩
  next near =>
    -- Finite differences come from finite coordinates, and these have finite speeds.
    obtain ⟨⟨dx, dy⟩, pushX, pushY⟩ := pushed (Bool.eq_false_iff.mpr near)
    exact ⟨isNaN_add (alongX (isFinite_of_isFinite_sub x hs.1 dx)) pushX,
      isNaN_add (alongY (isFinite_of_isFinite_sub y hs.2 dy)) pushY⟩

theorem position_pushFrom (p : Particle) (source : Point) (radius strength : Float) :
    (p.pushFrom source radius strength).x = p.x ∧ (p.pushFrom source radius strength).y = p.y := by
  unfold pushFrom
  dsimp only
  split <;> exact ⟨rfl, rfl⟩

/-! ## The edges -/

theorem isNaN_bounce {extent coordinate speed : Float} (side : IsSide extent)
    (x : coordinate.isNaN = false) (moving : speed.isNaN = false) :
    0.0 ≤ (bounce extent coordinate speed).1 ∧ (bounce extent coordinate speed).1 ≤ extent ∧
      (bounce extent coordinate speed).2.isNaN = false := by
  have numbers : (bounce extent coordinate speed).1.isNaN = false ∧
      (bounce extent coordinate speed).2.isNaN = false := by
    unfold bounce
    split
    next =>
      refine ⟨?_, (isNaN_neg speed).trans moving⟩
      simp only [clampTo, nonnegative]
      split_ifs <;> first | rfl | exact x | exact isNaN_of_isFinite side.isFinite
    next => exact ⟨x, moving⟩
  obtain ⟨notBelow, notAbove⟩ := isOut_eq_false.mp (isOut_bounce side coordinate speed)
  have extentNumber := isNaN_of_isFinite side.isFinite
  refine ⟨le_iff.mpr ⟨rfl, numbers.1, ?_⟩, le_iff.mpr ⟨numbers.1, extentNumber, ?_⟩, numbers.2⟩
  · exact not_lt.mp fun less => notBelow (lt_iff.mpr ⟨numbers.1, rfl, less⟩)
  · exact not_lt.mp fun less => notAbove (lt_iff.mpr ⟨extentNumber, numbers.1, less⟩)

theorem onSurface_reflect (clamped : IsClamped size) (x : p.x.isNaN = false)
    (y : p.y.isNaN = false) (speedX : p.speedX.isNaN = false) (speedY : p.speedY.isNaN = false) :
    (p.reflect size).OnSurface size := by
  obtain ⟨left, right, alongX⟩ := isNaN_bounce clamped.1 x speedX
  obtain ⟨top, bottom, alongY⟩ := isNaN_bounce clamped.2 y speedY
  exact ⟨left, right, top, bottom, alongX, alongY⟩

theorem OnSurface.damp (h : p.OnSurface size) {factor : Float} (finite : factor.isFinite = true)
    (nonzero : value factor ≠ 0) : (p.damp factor).OnSurface size :=
  { h with
    speedX := isNaN_mul h.speedX finite nonzero
    speedY := isNaN_mul h.speedY finite nonzero }

theorem OnSurface.fadeOut (h : p.OnSurface size) : p.fadeOut.OnSurface size := by
  unfold Particle.fadeOut
  split
  · exact { h with }
  · exact h

end Particle

/-! ## A frame -/

namespace ParticleField

open Particle

theorem isFinite_force {c : PointerConfig} (h : c.strength.isFinite = true) :
    (force c).isFinite = true := by
  unfold force
  cases c.force with
  | repel => exact h
  | attract => exact (isFinite_neg _).trans h

theorem onSurface_stepParticle {c : FieldConfig} (valid : c.Valid) {size : Size}
    (clamped : IsClamped size) {pointer : Option Point}
    (finite : ∀ source, pointer = some source → source.IsFinite) {p : Particle} (h : p.Movable) :
    (stepParticle c size pointer p).OnSurface size := by
  obtain ⟨damping, above⟩ := valid.finite_damping
  have x := isNaN_add h.position.1 h.speedX
  have y := isNaN_add h.position.2 h.speedY
  have finished {q : Particle} (reflected : (q.reflect size).OnSurface size) :
      ((q.reflect size).damp c.damping).fadeOut.OnSurface size :=
    (reflected.damp damping above.ne').fadeOut
  cases pointer with
  | none => exact finished (onSurface_reflect (p := p.integrate) clamped x y h.speedX h.speedY)
  | some source =>
      obtain ⟨sameX, sameY⟩ :=
        p.integrate.position_pushFrom source c.pointer.radius (force c.pointer)
      obtain ⟨speedX, speedY⟩ := isNaN_pushFrom (finite source rfl) valid.pointerRadius.2
        (isFinite_force valid.pointerStrength.2) (p := p.integrate) x y h.speedX h.speedY
        (isFinite_of_isFinite_add h.position.1 h.speedX)
        (isFinite_of_isFinite_add h.position.2 h.speedY)
      exact finished (onSurface_reflect clamped (sameX ▸ x) (sameY ▸ y) speedX speedY)

theorem between_ofCount (n : Nat) : (ofCount n).isNaN = false ∧
    Between n.toUInt64.toNat (value (ofCount n)) := by
  have between := between_normalize n.toUInt64.toNat 0 .positive
  rw [zpow_zero, mul_one] at between
  exact between

theorem value_ofCount_le (n : Nat) :
    (ofCount n).isFinite = true ∧ 0 ≤ value (ofCount n) ∧ value (ofCount n) ≤ 2 ^ 64 := by
  obtain ⟨bound, finite, same⟩ := exists_isFinite_eq_two_zpow (k := 64) (by decide) (by decide)
  obtain ⟨number, between⟩ := between_ofCount n
  have nonneg := between.nonneg (Nat.cast_nonneg _)
  have word : (n.toUInt64.toNat : ℚ) ≤ 2 ^ 64 := by exact_mod_cast n.toUInt64.toNat_lt.le
  have upper := (between bound (isNaN_of_isFinite finite)).2 (word.trans_eq same.symm)
  exact ⟨isFinite_of_nonneg_of_le number nonneg finite upper, nonneg, upper.trans_eq same⟩

theorem one_le_value_ofCount {n : Nat} (some : 0 < n) (word : n < 2 ^ 64) :
    1 ≤ value (ofCount n) := by
  have same : n.toUInt64.toNat = n := Nat.mod_eq_of_lt word
  have least := ((between_ofCount n).2 1.0 rfl).1
  rw [value_one, same] at least
  exact least (by exact_mod_cast some)

theorem isFinite_burstAngle {c : BurstConfig} (some : 0 < c.count) (word : c.count < 2 ^ 64)
    (i : Nat) : (burstAngle c i).isFinite = true := by
  have eight : value 8.0 = 2 ^ 3 := by
    change scaled (2 ^ 52) (-49) = _
    norm_num [scaled]
  obtain ⟨-, -, turn⟩ := le_iff.mp (show fullTurn ≤ 8.0 by decide +kernel)
  obtain ⟨-, -, forward⟩ := le_iff.mp (show 0.0 ≤ fullTurn by decide +kernel)
  rw [value_zero] at forward
  obtain ⟨bound, limited, same⟩ := exists_isFinite_eq_two_zpow (k := 67) (by decide) (by decide)
  have real := isNaN_of_isFinite limited
  obtain ⟨finite, nonneg, small⟩ := value_ofCount_le i
  obtain ⟨number, between⟩ := between_mul (x := fullTurn) rfl finite
  have product : value fullTurn * value (ofCount i) ≤ value bound :=
    calc value fullTurn * value (ofCount i) ≤ 2 ^ 3 * 2 ^ 64 :=
          mul_le_mul (turn.trans_eq eight) small nonneg (by norm_num)
      _ = value bound := by rw [same, ← pow_add]; rfl
  have lower := between.nonneg (mul_nonneg forward nonneg)
  have upper := (between bound real).2 product
  have turned := isFinite_of_nonneg_of_le number lower limited upper
  obtain ⟨count, -, -⟩ := value_ofCount_le c.count
  have divisor := one_le_value_ofCount some word
  obtain ⟨number, between⟩ := between_div turned count (by linarith)
  have quotient := (between bound real).2 ((div_le_self lower divisor).trans upper)
  exact isFinite_of_nonneg_of_le number (between.nonneg (div_nonneg lower (by linarith))) limited
    quotient

/-! ## Draws -/

theorem drawable_side {x : Float} (side : IsSide x) : (⟨0.0, x⟩ : Span).Drawable where
  min := show (0.0 : Float).isFinite = true from rfl
  max := side.isFinite
  width := by
    obtain ⟨number, between⟩ := between_sub side.isFinite (y := 0.0) rfl
    rw [value_zero, sub_zero] at between
    exact isFinite_of_nonneg_of_le number (between.nonneg side.value_nonneg) side.isFinite
      ((between x (isNaN_of_isFinite side.isFinite)).2 le_rfl)
  order := fun reversed => by
    have less := (lt_iff.mp reversed).2.2
    rw [value_zero] at less
    exact absurd side.value_nonneg (not_le.mpr less)

variable {σ : Type} [WordStream σ]

theorem sample_side {x : Float} (side : IsSide x) (g : σ) :
    0.0 ≤ (Span.sample ⟨0.0, x⟩ g).1 ∧ (Span.sample ⟨0.0, x⟩ g).1 ≤ x := by
  have holds := Span.holds_sample (drawable_side side) g
  have number := isNaN_of_isFinite holds.finite
  exact ⟨le_iff.mpr ⟨rfl, number, holds.min⟩,
    le_iff.mpr ⟨number, isNaN_of_isFinite side.isFinite, holds.max⟩⟩

theorem isNaN_sample {s : Span} (h : s.Drawable) (g : σ) : (s.sample g).1.isNaN = false :=
  isNaN_of_isFinite (Span.holds_sample h g).finite

theorem onSurface_restingParticle {c : FieldConfig} (valid : c.Valid) {size : Size}
    (clamped : IsClamped size) (g : σ) : (restingParticle c size g).1.OnSurface size := by
  unfold restingParticle
  dsimp only
  constructor
  · exact (sample_side clamped.1 _).1
  · exact (sample_side clamped.1 _).2
  · exact (sample_side clamped.2 _).1
  · exact (sample_side clamped.2 _).2
  · exact isNaN_sample valid.speed _
  · exact isNaN_sample valid.speed _

/-! ## Runs -/

structure Contained {γ : Type} (f : ParticleField γ) : Prop where
  valid : f.config.Valid
  word : f.config.burst.count < 2 ^ 64
  clamped : IsClamped f.size
  pointer : ∀ source, f.pointer = some source → source.IsFinite
  movable : ∀ p ∈ f.particles, p.Movable
  resting : ∀ p ∈ f.particles, (p.fade == 0.0) = true → p.OnSurface f.size

section Frames

variable {γ : Type} {f : ParticleField γ}

theorem Contained.felt (h : f.Contained) :
    ∀ source, f.felt = some source → source.IsFinite := by
  intro source felt
  unfold ParticleField.felt at felt
  split at felt
  · exact h.pointer source felt
  · cases felt

theorem Contained.onSurface_update (h : f.Contained) :
    ∀ p ∈ f.update.particles, p.OnSurface f.update.size := by
  intro p member
  obtain ⟨old, there, rfl⟩ := List.mem_map.mp (mem_of_mem_dropFirst member)
  exact onSurface_stepParticle h.valid h.clamped h.felt (h.movable old there)

theorem Contained.update (h : f.Contained) : f.update.Contained where
  valid := h.valid
  word := h.word
  clamped := h.clamped
  pointer := h.pointer
  movable := fun p member => (h.onSurface_update p member).movable h.clamped
  resting := fun p member _ => h.onSurface_update p member

end Frames

section Operations

variable {f : ParticleField σ}

theorem contained_populate (valid : f.config.Valid) (word : f.config.burst.count < 2 ^ 64)
    (clamped : IsClamped f.size) (pointer : ∀ source, f.pointer = some source → source.IsFinite) :
    f.populate.Contained := by
  have onSurface : ∀ p ∈ f.populate.particles, p.OnSurface f.size :=
    Random.forall_mem_drawMany (onSurface_restingParticle valid clamped) _ _
  exact ⟨valid, word, clamped, pointer, fun p member => (onSurface p member).movable clamped,
    fun p member _ => onSurface p member⟩

variable [Trigonometry]

theorem movable_burstParticle {c : FieldConfig} (valid : c.Valid) (total : Trigonometry.Total)
    {source : Point} (finite : source.IsFinite) (word : c.burst.count < 2 ^ 64) {i : Nat}
    (less : i < c.burst.count) (g : σ) : (burstParticle c source i g).1.Movable := by
  have angle := isFinite_burstAngle ((Nat.zero_le i).trans_lt less) word i
  obtain ⟨sin, cos⟩ := total _ angle
  have speed := (Span.holds_sample valid.burstSpeed g).finite
  exact ⟨finite, (between_mul cos speed).1, (between_mul sin speed).1⟩

def Operation.IsFinite : Operation → Prop
  | .pointerMove position => position.IsFinite
  | .click position => position.IsFinite
  | _ => True

theorem Contained.spawnBurst (total : Trigonometry.Total) (h : f.Contained) {source : Point}
    (finite : source.IsFinite) : (f.spawnBurst source).Contained := by
  have burst := forall_mem_burst (P := fun p => p.Movable ∧ (p.fade == 0.0) = false) h.valid source
    (fun i less positive g => by
      refine ⟨movable_burstParticle h.valid total finite h.word less g, ?_⟩
      refine Bool.eq_false_iff.mpr fun same => ?_
      have fades := (lt_iff.mp positive).2.2
      exact lt_irrefl _ (fades.trans_eq (beq_iff.mp same).2.2)) f.random
  refine ⟨h.valid, h.word, h.clamped, h.pointer, ?_, ?_⟩
  · intro p member
    rcases List.mem_append.mp member with old | new
    · exact h.movable p old
    · exact (burst p new).1
  · intro p member rest
    rcases List.mem_append.mp member with old | new
    · exact h.resting p old rest
    · exact absurd rest (by simp [(burst p new).2])

theorem Contained.operate (total : Trigonometry.Total) (h : f.Contained) {operation : Operation}
    (finite : operation.IsFinite) : (f.operate operation).Contained := by
  have nowhere : ∀ source, (none : Option Point) = some source → source.IsFinite := by simp
  have outcome := f.outcome_operate operation
  generalize f.operate operation = f' at outcome ⊢
  cases outcome with
  | moveIgnored | clickIgnored => exact h
  | moved position | waved position =>
      have moved : ∀ source, some position = some source → source.IsFinite :=
        fun source same => Option.some.inj same ▸ finite
      exact ⟨h.valid, h.word, h.clamped, moved, h.movable, h.resting⟩
  | left => exact ⟨h.valid, h.word, h.clamped, nowhere, h.movable, h.resting⟩
  | clicked position =>
      have waved : (f.spawnWave position).Contained :=
        ⟨h.valid, h.word, h.clamped, h.pointer, h.movable, h.resting⟩
      exact waved.spawnBurst total finite
  | updated => exact h.update
  | resized size => exact contained_populate h.valid h.word (isClamped_clamped size) h.pointer
  | cleared =>
      exact ⟨h.valid, h.word, h.clamped, nowhere, List.forall_mem_nil _, List.forall_mem_nil _⟩

theorem Contained.play (total : Trigonometry.Total) (h : f.Contained) {operations : List Operation}
    (finite : ∀ operation ∈ operations, operation.IsFinite) : (f.play operations).Contained := by
  induction operations generalizing f with
  | nil => exact h
  | cons operation operations ih =>
      obtain ⟨now, later⟩ := List.forall_mem_cons.mp finite
      exact ih (h.operate total now) later

/-- Every frame leaves all particles on the surface, and those at rest are always on it, as long as
the pointer has finite coordinates. The count of a burst is a machine word. -/
theorem stays_on_surface (total : Trigonometry.Total) (config : FieldConfig) (size : Size)
    (random : σ) (operations : List Operation) (valid : config.validate = .ok ())
    (word : config.burst.count < 2 ^ 64)
    (finite : ∀ operation ∈ operations, operation.IsFinite) :
    ∃ start, create config size random = .ok start ∧
      let f := start.play operations
      (∀ p ∈ f.particles, (p.fade == 0.0) = true → p.OnSurface f.size) ∧
      ∀ p ∈ f.update.particles, p.OnSurface f.update.size := by
  let start : ParticleField σ := populate
    { config, size := size.clamped, particles := [], waves := [], pointer := none, random, frame := 0 }
  have created : create config size random = .ok start := create_of_valid valid size random
  have contained : start.Contained := contained_populate (FieldConfig.validate_eq_ok.mp valid) word
    (isClamped_clamped size) (by simp)
  have reached := contained.play total finite
  exact ⟨start, created, reached.resting, reached.onSurface_update⟩

end Operations

theorem stays_on_surface_right :
    let config : FieldConfig := { burst := { count := 1 } }
    let operations : List Operation :=
      [.pointerMove ⟨30.0, 40.0⟩, .click ⟨-5.0, 1.0e300⟩, .update, .resize ⟨80.0, 0.0 / 0.0⟩, .update]
    letI : Trigonometry := ⟨fun _ => 0.0, fun _ => 1.0⟩
    config.validate = .ok () ∧
      ∃ start, create config ⟨400.0, 300.0⟩ (⟨1, 2, 3, 4⟩ : Generator) = .ok start ∧
        let f := start.play operations
        (∀ p ∈ f.particles, (p.fade == 0.0) = true → p.OnSurface f.size) ∧
        ∀ p ∈ f.update.particles, p.OnSurface f.update.size := by
  intro config operations
  have valid : ({ burst := { count := 1 } } : FieldConfig).validate = .ok () := rfl
  let trigonometry : Trigonometry := ⟨fun _ => 0.0, fun _ => 1.0⟩
  have total : Trigonometry.Total := fun _ _ =>
    ⟨show (0.0 : Float).isFinite = true from rfl, show (1.0 : Float).isFinite = true from rfl⟩
  have finite : ∀ operation ∈ operations, operation.IsFinite := by
    simp only [operations, List.forall_mem_cons, List.not_mem_nil, Operation.IsFinite, Point.IsFinite,
      false_implies, implies_true, and_true]
    decide +kernel
  exact ⟨valid, stays_on_surface total config ⟨400.0, 300.0⟩ (⟨1, 2, 3, 4⟩ : Generator) operations valid
    (by decide) finite⟩

end ParticleField
end AnimatedCanvas
