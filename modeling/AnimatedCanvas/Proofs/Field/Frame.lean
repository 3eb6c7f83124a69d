import AnimatedCanvas.Field.Frame
import AnimatedCanvas.Proofs.Arranged
import AnimatedCanvas.Proofs.Field.Lives

namespace AnimatedCanvas.ParticleField

open Binary64 Check

def IsLine (c : LinkConfig) (ps : List Particle) (i j : Nat) (command : DrawCommand) : Prop :=
  (c.distance > 0.0 ∧ c.opacity > 0.0) ∧ ∃ p q, i < j ∧ ps[i]? = some p ∧ ps[j]? = some q ∧
    let distance := p.position.distance q.position
    distance < c.distance ∧
      command = .line p.position q.position
        (c.color.withAlpha ((1.0 - distance / c.distance) * c.opacity)) c.width

theorem link?_eq_some {c : LinkConfig} {p q : Particle} {command : DrawCommand} :
    link? c p q = some command ↔
      let distance := p.position.distance q.position
      distance < c.distance ∧
        command = .line p.position q.position
          (c.color.withAlpha ((1.0 - distance / c.distance) * c.opacity)) c.width := by
  simp [link?, eq_comm]

theorem tabled_links {c : LinkConfig} (shown : c.distance > 0.0 ∧ c.opacity > 0.0)
    (ps : List Particle) : Tabled (IsLine c ps) (links c ps) := by
  induction ps with
  | nil => exact Tabled.nil (by simp [IsLine])
  | cons p ps ih =>
      -- In the first row the columns begin after the diagonal, and later pairs are one further on.
      have shift : StrictMono (· + 1 : Nat → Nat) := fun _ _ => Nat.succ_lt_succ
      refine Tabled.cons shift shift (Arranged.filterMap (link? c p) ps) ih (fun j command => ?_)
        fun i j command => ?_
      · cases j with
        | zero => simp [IsLine]
        | succ j => simp [IsLine, shown, link?_eq_some]
      · cases j with
        | zero => simp [IsLine]
        | succ j => simp [IsLine]

def trailAlpha (c : TrailConfig) (p : Particle) (i : Nat) : Float :=
  ofCount i / ofCount p.trail.length * p.opacity * c.opacity

def IsDot (c : TrailConfig) (ps : List Particle) (k i : Nat) (command : DrawCommand) : Prop :=
  ∃ p point, ps[k]? = some p ∧ p.trail.points[i]? = some point ∧ trailAlpha c p i > 0.0 ∧
    command = .fillCircle point (p.radius * c.scale) (p.color.withAlpha (trailAlpha c p i))

theorem mul_inUnit {x y : Float} (finite : x.isFinite = true) (nonneg : 0 ≤ value x) (unit : InUnit y) :
    (x * y).isFinite = true ∧ 0 ≤ value (x * y) ∧ value (x * y) ≤ value x := by
  obtain ⟨finite', nonneg', le_one⟩ := unit.value
  obtain ⟨number, between⟩ := between_mul finite finite'
  have product := between.nonneg (mul_nonneg nonneg nonneg')
  have le := (between x (isNaN_of_isFinite finite)).2 (mul_le_of_le_one_right nonneg le_one)
  exact ⟨isFinite_of_nonneg_of_le number product finite le, product, le⟩

theorem value_trailAlpha {c : TrailConfig} {p : Particle} (visible : InUnit c.opacity)
    (opacity : InUnit p.opacity) (some : 0 < p.trail.length) (word : p.trail.length < 2 ^ 64) (i : Nat) :
    (trailAlpha c p i).isNaN = false ∧ 0 ≤ value (trailAlpha c p i) ∧
      value (trailAlpha c p i) ≤ value (ofCount i) := by
  obtain ⟨finite, nonneg, -⟩ := value_ofCount_le i
  obtain ⟨finite', -, -⟩ := value_ofCount_le p.trail.length
  have divisor := one_le_value_ofCount some word
  obtain ⟨number, between⟩ := between_div finite finite' (by linarith)
  have quotient := between.nonneg (div_nonneg nonneg (by linarith))
  have le := (between (ofCount i) (isNaN_of_isFinite finite)).2 (div_le_self nonneg divisor)
  obtain ⟨shared, nonneg, le'⟩ :=
    mul_inUnit (isFinite_of_nonneg_of_le number quotient finite le) quotient opacity
  obtain ⟨dimmed, nonneg, le''⟩ := mul_inUnit shared nonneg visible
  exact ⟨isNaN_of_isFinite dimmed, nonneg, le''.trans (le'.trans le)⟩

theorem not_le_zero {x : Float} (number : x.isNaN = false) : ¬ x ≤ 0.0 ↔ x > 0.0 := by
  rw [gt_iff_lt, le_iff, lt_iff]
  exact ⟨fun above => ⟨rfl, number, not_le.mp fun le => above ⟨number, rfl, le⟩⟩,
    fun positive le => positive.2.2.not_ge le.2.2⟩

theorem trailDot?_eq_some {c : TrailConfig} {p : Particle} {i : Nat}
    (number : (trailAlpha c p i).isNaN = false) {point : Point} {command : DrawCommand} :
    trailDot? c p point i = some command ↔ trailAlpha c p i > 0.0 ∧
      command = .fillCircle point (p.radius * c.scale) (p.color.withAlpha (trailAlpha c p i)) := by
  have dot : trailDot? c p point i = if trailAlpha c p i ≤ 0.0 then none else
    some (.fillCircle point (p.radius * c.scale) (p.color.withAlpha (trailAlpha c p i))) := rfl
  rw [dot, ← not_le_zero number]
  simp [eq_comm]

theorem arranged_trailDots {c : TrailConfig} {p : Particle}
    (number : ∀ i < p.trail.length, (trailAlpha c p i).isNaN = false) :
    Arranged (fun i command => ∃ point, p.trail.points[i]? = some point ∧ trailAlpha c p i > 0.0 ∧
      command = .fillCircle point (p.radius * c.scale) (p.color.withAlpha (trailAlpha c p i)))
      (trailDots c p) := by
  refine (Arranged.filterMap _ p.trail.points.zipIdx).congr fun i command => ?_
  simp only [List.getElem?_zipIdx, Option.map_eq_some_iff]
  constructor
  · rintro ⟨point, there, shown⟩
    have inside : i < p.trail.length := (List.getElem?_eq_some_iff.mp there).1
    exact ⟨(point, i), ⟨point, there, by simp⟩, (trailDot?_eq_some (number i inside)).mpr shown⟩
  · rintro ⟨-, ⟨point, there, rfl⟩, shown⟩
    have inside : i < p.trail.length := (List.getElem?_eq_some_iff.mp there).1
    rw [Nat.zero_add] at shown
    exact ⟨point, there, (trailDot?_eq_some (number i inside)).mp shown⟩

section Frames

variable {γ : Type} {f : ParticleField γ}

theorem tabled_linkCommands (valid : f.config.Valid) :
    Tabled (IsLine f.config.links f.particles) f.linkCommands := by
  have far := not_le_zero (isNaN_of_isFinite valid.linksDistance.2)
  have seen := not_le_zero (isNaN_of_isFinite valid.linksOpacity.finite)
  by_cases shown : f.config.links.distance > 0.0 ∧ f.config.links.opacity > 0.0
  · have drawn : f.linkCommands = links f.config.links f.particles := by
      simp [linkCommands, far.mpr shown.1, seen.mpr shown.2]
    exact drawn ▸ tabled_links shown f.particles
  · have drawn : f.linkCommands = [] := by
      rw [not_and_or, ← far, ← seen, not_not, not_not] at shown
      exact if_pos (by simpa using shown)
    exact drawn ▸ Tabled.nil fun _ _ _ line => shown line.1

theorem tabled_trailCommands (number : ∀ p ∈ f.particles, ∀ i < p.trail.length,
    (trailAlpha f.config.trail p i).isNaN = false) :
    Tabled (IsDot f.config.trail f.particles) f.trailCommands := by
  refine (Tabled.flatMap fun p member => arranged_trailDots (number p member)).congr
    fun place command => ?_
  simp [IsDot]

variable {σ : Type} [WordStream σ] [Trigonometry]

theorem exists_sound {config : FieldConfig} {size : Size} {random : σ} {start : ParticleField σ}
    (valid : config.validate = .ok ()) (created : create config size random = .ok start)
    (operations : List Operation) :
    ∀ p ∈ (start.play operations).particles, ∃ l : Life, l.now = p ∧ l.Sound config := by
  have allowed := FieldConfig.validate_eq_ok.mp valid
  obtain rfl := eq_of_create valid created
  intro p member
  rw [← map_lives (map_now_start _)] at member
  obtain ⟨l, there, rfl⟩ := List.mem_map.mp member
  refine ⟨l, rfl, sound_play allowed (List.forall_mem_map.mpr ?_) operations l there⟩
  exact Random.forall_mem_drawMany (P := fun p => (Life.start p).Sound config)
    (sound_restingParticle allowed size.clamped) config.targetCount random

theorem trailAlpha_play {config : FieldConfig} {size : Size} {random : σ} {start : ParticleField σ}
    (valid : config.validate = .ok ()) (word : config.trail.cap < 2 ^ 64)
    (created : create config size random = .ok start) (operations : List Operation) :
    ∀ p ∈ (start.play operations).particles, ∀ i < p.trail.length,
      (trailAlpha config.trail p i).isNaN = false ∧
        value (trailAlpha config.trail p i) ≤ value (ofCount i) := by
  intro p member i inside
  obtain ⟨l, rfl, sound⟩ := exists_sound valid created operations p member
  have capped : l.now.trail.length ≤ config.trail.cap := sound.trail ▸ Nat.min_le_left _ _
  obtain ⟨number, -, le⟩ := value_trailAlpha (FieldConfig.validate_eq_ok.mp valid).trailOpacity
    sound.fading.opacity (Nat.zero_lt_of_lt inside) (capped.trans_lt word) i
  exact ⟨number, le⟩

end Frames

end AnimatedCanvas.ParticleField
