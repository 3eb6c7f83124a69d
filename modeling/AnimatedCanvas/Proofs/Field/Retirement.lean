import AnimatedCanvas.Field
import Mathlib.Data.List.Basic

namespace AnimatedCanvas.ParticleField

section Lists

variable {gone : Particle → Bool} {n : Nat} {ps : List Particle}

theorem dropFirst_zero (gone : Particle → Bool) (ps : List Particle) : dropFirst gone 0 ps = ps := by
  cases ps <;> rfl

theorem exists_dropFirst_eq (gone : Particle → Bool) (n : Nat) (ps : List Particle) :
    ∃ front back, ps = front ++ back ∧ front.countP gone = min n (ps.countP gone) ∧
      dropFirst gone n ps = front.filter (! gone ·) ++ back := by
  induction ps generalizing n with
  | nil => exact ⟨[], [], rfl, by simp, by cases n <;> rfl⟩
  | cons p ps ih =>
      cases n with
      | zero => exact ⟨[], p :: ps, rfl, by simp, rfl⟩
      | succ n =>
          cases leaves : gone p with
          | true =>
              obtain ⟨front, back, rfl, count, dropped⟩ := ih n
              refine ⟨p :: front, back, rfl, ?_, ?_⟩
              · simp only [List.countP_cons_of_pos leaves, count]
                omega
              · simp [dropFirst, leaves, dropped]
          | false =>
              obtain ⟨front, back, rfl, count, dropped⟩ := ih (n + 1)
              refine ⟨p :: front, back, rfl, ?_, ?_⟩
              · rw [List.countP_cons_of_neg (by simp [leaves]),
                  List.countP_cons_of_neg (by simp [leaves]), count]
              · simp [dropFirst, leaves, dropped]

theorem dropFirst_sublist (gone : Particle → Bool) (n : Nat) (ps : List Particle) :
    (dropFirst gone n ps).Sublist ps := by
  obtain ⟨front, back, same, -, dropped⟩ := exists_dropFirst_eq gone n ps
  rw [dropped, same]
  exact List.filter_sublist.append_right back

theorem mem_of_mem_dropFirst {p : Particle} (member : p ∈ dropFirst gone n ps) : p ∈ ps :=
  (dropFirst_sublist gone n ps).subset member

theorem dropFirst_eq_filter (enough : ps.countP gone ≤ n) :
    dropFirst gone n ps = ps.filter (! gone ·) := by
  obtain ⟨front, back, rfl, count, dropped⟩ := exists_dropFirst_eq gone n ps
  rw [Nat.min_eq_right enough, List.countP_append] at count
  have none : ∀ p ∈ back, ¬ gone p = true := List.countP_eq_zero.mp (by omega)
  have kept : back.filter (! gone ·) = back := List.filter_eq_self.mpr (by simpa using none)
  rw [dropped, List.filter_append, kept]

theorem dropFirst_min (gone : Particle → Bool) (n : Nat) (ps : List Particle) :
    dropFirst gone (min n (ps.countP gone)) ps = dropFirst gone n ps := by
  rcases Nat.le_total n (ps.countP gone) with few | many
  · rw [Nat.min_eq_left few]
  · rw [Nat.min_eq_right many, dropFirst_eq_filter (Nat.le_refl _), dropFirst_eq_filter many]

theorem length_dropFirst (gone : Particle → Bool) (n : Nat) (ps : List Particle) :
    (dropFirst gone n ps).length + min n (ps.countP gone) = ps.length := by
  obtain ⟨front, back, same, count, dropped⟩ := exists_dropFirst_eq gone n ps
  have parted := List.length_eq_countP_add_countP gone (l := front)
  have stays : (front.filter (! gone ·)).length = front.countP (¬ gone · = true) := by
    simp [List.countP_eq_length_filter]
  rw [← count, dropped, same, List.length_append, List.length_append, stays, parted]
  omega

theorem dropFirst_eq_zipIdx (gone : Particle → Bool) (n : Nat) (ps : List Particle) :
    dropFirst gone n ps = (ps.zipIdx.filter fun (p, i) =>
      !(gone p && (ps.take i).countP gone < n)).map Prod.fst := by
  induction ps generalizing n with
  | nil => cases n <;> rfl
  | cons p ps ih =>
      have shifted : (p :: ps).zipIdx = (p, 0) :: ps.zipIdx.map fun (q, i) => (q, i + 1) := by
        rw [List.zipIdx_cons, Nat.zero_add, List.zipIdx_succ]
      cases n with
      | zero => simp [dropFirst]
      | succ n =>
          rw [shifted]
          cases leaves : gone p with
          | true => simp [dropFirst, leaves, ih, List.filter_map, Function.comp_def]
          | false => simp [dropFirst, leaves, ih, List.filter_map, Function.comp_def]

theorem dropFirst_settles (gone : Particle → Bool) (target : Nat) (ps : List Particle) :
    let kept := dropFirst gone (ps.length - target) ps
    dropFirst gone (kept.length - target) kept = kept := by
  intro kept
  have length := length_dropFirst gone (ps.length - target) ps
  -- Either all who may go have gone, or there are no more than the target.
  rcases Nat.le_total (ps.countP gone) (ps.length - target) with many | few
  · have none : kept.countP gone = 0 := by
      rw [List.countP_eq_zero]
      intro p member
      have left : kept = ps.filter (! gone ·) := dropFirst_eq_filter many
      rw [left] at member
      simpa using (List.mem_filter.mp member).2
    rw [dropFirst_eq_filter (by omega), List.filter_eq_self]
    simpa using List.countP_eq_zero.mp none
  · rw [Nat.min_eq_left few] at length
    have met : kept.length - target = 0 := by
      change kept.length + _ = _ at length
      omega
    rw [met, dropFirst_zero]

end Lists

variable {γ : Type}

theorem isRetirable_iff {size : Size} {margin : Float} {p : Particle} :
    isRetirable size margin p = true ↔ (p.fade > 0.0 ∧ p.opacity ≤ 0.0) ∨
      p.x < -margin ∨ p.x > size.width + margin ∨ p.y < -margin ∨ p.y > size.height + margin := by
  simp only [isRetirable, Particle.isTransient, Size.isFarOutside, Bool.or_eq_true,
    Bool.and_eq_true, decide_eq_true_eq, or_assoc]
  rfl

/-- Retiring takes as many from the front as may go and are more than wanted. All others stay as they
are and in their order, so that no more go than are too many, and a second time nobody goes. -/
theorem retirement_exact (f : ParticleField γ) :
    let margin := f.config.retireMargin
    let retirable := isRetirable f.size margin
    let leaving := min (f.particles.length - f.config.targetCount) (f.particles.countP retirable)
    let kept := (f.particles.zipIdx.filter fun (p, i) =>
      !(retirable p && (f.particles.take i).countP retirable < leaving)).map Prod.fst
    (∀ p, retirable p = true ↔ (p.fade > 0.0 ∧ p.opacity ≤ 0.0) ∨ p.x < -margin ∨
      p.x > f.size.width + margin ∨ p.y < -margin ∨ p.y > f.size.height + margin) ∧
    f.retireSurplus = { f with particles := kept } ∧
    kept.length + leaving = f.particles.length ∧
    min f.particles.length f.config.targetCount ≤ kept.length ∧
    f.retireSurplus.retireSurplus = f.retireSurplus := by
  intro margin retirable leaving kept
  have dropped : dropFirst retirable (f.particles.length - f.config.targetCount) f.particles = kept :=
    (dropFirst_min retirable _ f.particles).symm.trans (dropFirst_eq_zipIdx retirable leaving _)
  have length : kept.length + leaving = f.particles.length := dropped ▸ length_dropFirst retirable _ _
  have retired : f.retireSurplus = { f with particles := kept } := by
    rw [← dropped]
    rfl
  refine ⟨fun p => isRetirable_iff, retired, length, by omega, ?_⟩
  have again := dropFirst_settles retirable f.config.targetCount f.particles
  rw [dropped] at again
  rw [retired]
  exact congrArg (fun ps => { f with particles := ps }) again

end AnimatedCanvas.ParticleField
