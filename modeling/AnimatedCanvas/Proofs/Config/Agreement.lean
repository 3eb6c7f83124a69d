import AnimatedCanvas.Proofs.Config.Backdrop
import AnimatedCanvas.Proofs.Config.Circuit
import AnimatedCanvas.Proofs.Config.Leaves

namespace AnimatedCanvas

open Check
open Yaml (Tree)

deriving instance BEq for Color, Span, Backdrop, TrailConfig, PointerConfig, BurstConfig,
  WaveConfig, LinkConfig, FieldConfig, CircuitConfig

theorem Binary64.beq_self {x : Float} (finite : x.isFinite = true) : (x == x) = true :=
  have number := isNaN_of_isFinite finite
  beq_iff.2 ⟨number, number, rfl⟩

theorem Color.beq_self {c : Color} (clear : c.Opaque) : (c == c) = true := by
  change (c.red == c.red && (c.green == c.green && (c.blue == c.blue && c.alpha == c.alpha))) = true
  rw [show c.alpha = 1.0 from clear]
  simp only [beq_self_eq_true, Bool.true_and]
  exact Binary64.beq_self rfl

theorem Color.palette_beq_self {cs : List Color} (clear : ∀ c ∈ cs, c.Opaque) :
    (cs == cs) = true := by
  induction cs with
  | nil => rfl
  | cons c cs ih =>
      obtain ⟨first, rest⟩ := List.forall_mem_cons.1 clear
      rw [List.cons_beq_cons, beq_self first, ih rest, Bool.true_and]

theorem Backdrop.beq_self {b : Backdrop} (regular : b.Regular)
    (valid : ∀ color alpha, b = .fade color alpha → InUnit alpha) : (b == b) = true := by
  cases b with
  | clear => rfl
  | fade color alpha =>
      change (color == color && alpha == alpha) = true
      rw [Color.beq_self regular, Binary64.beq_self (valid color alpha rfl).finite, Bool.true_and]

section

variable {t : Tree}

theorem Span.beq_iff {s s' : Span} :
    (s == s') = true ↔ (s.min == s'.min) = true ∧ (s.max == s'.max) = true :=
  Bool.and_eq_true_iff

theorem Span.beq_of_loaded {i s s' : Span} (h : Codec.span.Loaded t i s s') (valid : s.Drawable) :
    (s == s') = true :=
  beq_iff.2 (Codec.beq_of_span h valid.min valid.max)

theorem Codec.palette_beq_of_loaded {i cs cs' : List Color} (h : Codec.palette.Loaded t i cs cs')
    (nonempty : cs ≠ []) (clear : ∀ c ∈ cs, c.Opaque) : (cs == cs') = true := by
  obtain rfl := Codec.eq_of_palette h nonempty
  exact Color.palette_beq_self clear

theorem TrailConfig.beq_of_loaded {c c' : TrailConfig}
    (h : (Recorded.codec TrailConfig).Loaded t {} c c') (opacity : InUnit c.opacity)
    (scale : AtLeastZero c.scale) : (c == c') = true := by
  have parts := Recorded.loaded_parts h
  simp only [Recorded.parts, List.forall_mem_cons] at parts
  obtain ⟨atCap, atOpacity, atScale, -⟩ := parts
  change (c.cap == c'.cap && (c.opacity == c'.opacity && c.scale == c'.scale)) = true
  simp only [Bool.and_eq_true, beq_iff_eq]
  exact ⟨Codec.eq_of_count atCap, Codec.beq_of_real atOpacity opacity.finite,
    Codec.beq_of_real atScale scale.2⟩

theorem PointerConfig.beq_of_loaded {c c' : PointerConfig}
    (h : (Recorded.codec PointerConfig).Loaded t {} c c') (radius : AtLeastZero c.radius)
    (strength : AtLeastZero c.strength) : (c == c') = true := by
  have parts := Recorded.loaded_parts h
  simp only [Recorded.parts, List.forall_mem_cons] at parts
  obtain ⟨atForce, atRadius, atStrength, -⟩ := parts
  change (c.force == c'.force && (c.radius == c'.radius && c.strength == c'.strength)) = true
  simp only [Bool.and_eq_true, beq_iff_eq]
  exact ⟨Codec.eq_of_force atForce, Codec.beq_of_real atRadius radius.2,
    Codec.beq_of_real atStrength strength.2⟩

theorem BurstConfig.beq_of_loaded {c c' : BurstConfig}
    (h : (Recorded.codec BurstConfig).Loaded t {} c c') (speed : c.speed.Drawable)
    (radius : c.radius.Drawable) (opacity : c.opacity.Drawable) (fade : InUnit c.fade) :
    (c == c') = true := by
  have parts := Recorded.loaded_parts h
  simp only [Recorded.parts, List.forall_mem_cons] at parts
  obtain ⟨atCount, atSpeed, atRadius, atOpacity, atFade, -⟩ := parts
  change (c.count == c'.count && (c.speed == c'.speed && (c.radius == c'.radius &&
    (c.opacity == c'.opacity && c.fade == c'.fade)))) = true
  simp only [Bool.and_eq_true, beq_iff_eq]
  exact ⟨Codec.eq_of_count atCount, Span.beq_of_loaded atSpeed speed,
    Span.beq_of_loaded atRadius radius, Span.beq_of_loaded atOpacity opacity,
    Codec.beq_of_real atFade fade.finite⟩

theorem LinkConfig.beq_of_loaded {c c' : LinkConfig}
    (h : (Recorded.codec LinkConfig).Loaded t {} c c') (distance : AtLeastZero c.distance)
    (opacity : InUnit c.opacity) (clear : c.color.Opaque) (width : AtLeastZero c.width) :
    (c == c') = true := by
  have parts := Recorded.loaded_parts h
  simp only [Recorded.parts, List.forall_mem_cons] at parts
  obtain ⟨atDistance, atOpacity, atColor, atWidth, -⟩ := parts
  have color : c.color = c'.color := Codec.eq_of_color atColor
  change (c.distance == c'.distance && (c.opacity == c'.opacity && (c.color == c'.color &&
    c.width == c'.width))) = true
  rw [← color]
  simp only [Bool.and_eq_true]
  exact ⟨Codec.beq_of_real atDistance distance.2, Codec.beq_of_real atOpacity opacity.finite,
    Color.beq_self clear, Codec.beq_of_real atWidth width.2⟩

end

namespace WaveConfig

structure Sound (c : WaveConfig) : Prop where
  chance : InUnit c.chance
  maxRadius : c.maxRadius.Drawable
  speed : c.speed.Drawable
  opacity : InUnit c.opacity
  fade : InUnit c.fade
  palette : c.palette ≠ []
  clear : ∀ color ∈ c.palette, color.Opaque
  lineWidth : AtLeastZero c.lineWidth

theorem beq_of_loaded {t : Tree} {c c' : WaveConfig}
    (h : (Recorded.codec WaveConfig).Loaded t {} c c') (sound : c.Sound) : (c == c') = true := by
  have parts := Recorded.loaded_parts h
  simp only [Recorded.parts, List.forall_mem_cons] at parts
  obtain ⟨atChance, atMaxRadius, atSpeed, atOpacity, atFade, atStyle, atPalette, atLineWidth,
    -⟩ := parts
  change (c.chance == c'.chance && (c.maxRadius == c'.maxRadius && (c.speed == c'.speed &&
    (c.opacity == c'.opacity && (c.fade == c'.fade && (c.style == c'.style &&
      (c.palette == c'.palette && c.lineWidth == c'.lineWidth))))))) = true
  simp only [Bool.and_eq_true, beq_iff_eq]
  exact ⟨Codec.beq_of_real atChance sound.chance.finite,
    Span.beq_of_loaded atMaxRadius sound.maxRadius, Span.beq_of_loaded atSpeed sound.speed,
    Codec.beq_of_real atOpacity sound.opacity.finite, Codec.beq_of_real atFade sound.fade.finite,
    Codec.eq_of_style atStyle, Codec.palette_beq_of_loaded atPalette sound.palette sound.clear,
    Codec.beq_of_real atLineWidth sound.lineWidth.2⟩

end WaveConfig

theorem FieldConfig.beq_of_loaded {t : Tree} {c c' : FieldConfig}
    (h : (Recorded.codec FieldConfig).Loaded t {} c c') (valid : c.Valid)
    (regular : Recorded.Regular c) : (c == c') = true := by
  have parts := Recorded.loaded_parts h
  simp only [Recorded.parts, ownParts, records, List.cons_append, List.nil_append,
    List.forall_mem_cons] at parts
  obtain ⟨atTargetCount, atPalette, atRadius, atSpeed, atOpacity, atDamping, atRetireMargin,
    atInteractive, atGlowScale, atSolidCore, atBackdrop, atTrail, atPointer, atBurst, atWaves,
    atLinks, -⟩ := parts
  obtain ⟨clear, backdropRegular, wavesClear, linksClear⟩ := regular_iff.1 regular
  have backdrop : c.backdrop = c'.backdrop := Backdrop.eq_of_loaded atBackdrop
  have waves : c.waves.Sound := ⟨valid.wavesChance, valid.wavesMaxRadius, valid.wavesSpeed,
    valid.wavesOpacity, valid.wavesFade, valid.wavesPalette, wavesClear, valid.wavesLineWidth⟩
  change (c.targetCount == c'.targetCount && (c.palette == c'.palette && (c.radius == c'.radius &&
    (c.speed == c'.speed && (c.opacity == c'.opacity && (c.damping == c'.damping &&
      (c.retireMargin == c'.retireMargin && (c.interactive == c'.interactive &&
        (c.glowScale == c'.glowScale && (c.solidCore == c'.solidCore &&
          (c.backdrop == c'.backdrop && (c.trail == c'.trail && (c.pointer == c'.pointer &&
            (c.burst == c'.burst && (c.waves == c'.waves && c.links == c'.links)))))))))))))))
    = true
  rw [← backdrop]
  simp only [Bool.and_eq_true, beq_iff_eq]
  exact ⟨Codec.eq_of_count atTargetCount,
    Codec.palette_beq_of_loaded atPalette valid.palette clear,
    Span.beq_of_loaded atRadius valid.radius.1, Span.beq_of_loaded atSpeed valid.speed,
    Span.beq_of_loaded atOpacity valid.opacity.1,
    Codec.beq_of_real atDamping valid.finite_damping.1,
    Codec.beq_of_real atRetireMargin valid.retireMargin.2, Codec.eq_of_flag atInteractive,
    Codec.beq_of_real atGlowScale valid.glowScale.2, Codec.eq_of_flag atSolidCore,
    Backdrop.beq_self backdropRegular valid.backdrop,
    TrailConfig.beq_of_loaded atTrail valid.trailOpacity valid.trailScale,
    PointerConfig.beq_of_loaded atPointer valid.pointerRadius valid.pointerStrength,
    BurstConfig.beq_of_loaded atBurst valid.burstSpeed valid.burstRadius.1 valid.burstOpacity.1
      valid.burstFade,
    WaveConfig.beq_of_loaded atWaves waves,
    LinkConfig.beq_of_loaded atLinks valid.linksDistance valid.linksOpacity linksClear
      valid.linksWidth⟩

theorem CircuitConfig.beq_of_loaded {t : Tree} {c c' : CircuitConfig}
    (h : (Recorded.codec CircuitConfig).Loaded t {} c c') (valid : c.Valid) : (c == c') = true := by
  have parts := Recorded.loaded_parts h
  simp only [Recorded.parts, List.forall_mem_cons] at parts
  obtain ⟨atTracks, atGateCount, atDualChance, atTimeStep, atTail, atSweepRate, atPadding, -⟩ :=
    parts
  change (c.tracks == c'.tracks && (c.gateCount == c'.gateCount &&
    (c.dualChance == c'.dualChance && (c.timeStep == c'.timeStep && (c.tail == c'.tail &&
      (c.sweepRate == c'.sweepRate && c.padding == c'.padding)))))) = true
  simp only [Bool.and_eq_true, beq_iff_eq]
  exact ⟨Codec.eq_of_count atTracks, Codec.eq_of_count atGateCount,
    Codec.beq_of_real atDualChance valid.dualChance.finite,
    Span.beq_of_loaded atTimeStep valid.timeStep.1, Codec.beq_of_real atTail valid.tail.2,
    Codec.beq_of_real atSweepRate valid.sweepRate.2, Codec.beq_of_real atPadding valid.padding.2⟩

open AnimatedCanvas.Configuration

theorem loaded_of_both {α : Type} [RecordedConfiguration α] {text : String} {a b : α}
    (direct : ofYaml text = .ok a)
    (layered : withOverrides (Recorded.initial : α) text = .ok b) :
    validate a = .ok () ∧ Recorded.Regular a ∧
      ∃ t, (Recorded.codec α).Loaded t Recorded.initial a b := by
  obtain ⟨read, valid⟩ := checked_eq_ok.1 direct
  obtain ⟨t, tree, read⟩ := Option.bind_eq_some_iff.1 read
  obtain ⟨w, denotes, layered⟩ := withOverrides_eq_ok.1 layered
  obtain ⟨t', tree', denotes⟩ := Option.bind_eq_some_iff.1 denotes
  cases tree.symm.trans tree'
  exact ⟨valid, Recorded.regular_of_read? read, t, .given (Tree.denotes_of_value? denotes) read
    (checked_eq_ok.1 layered).1 (.inr rfl)⟩

/-- Filling in what a document leaves out and layering it over the defaults make no difference. -/
theorem loaded_agree :
    (∀ (text : String) (a b : FieldConfig), ofYaml text = .ok a →
      withOverrides ({} : FieldConfig) text = .ok b → (a == b) = true) ∧
    ∀ (text : String) (a b : CircuitConfig), ofYaml text = .ok a →
      withOverrides ({} : CircuitConfig) text = .ok b → (a == b) = true := by
  constructor
  · intro text a b direct layered
    obtain ⟨valid, regular, t, loaded⟩ := loaded_of_both direct layered
    exact FieldConfig.beq_of_loaded loaded (FieldConfig.validate_eq_ok.1 valid) regular
  · intro text a b direct layered
    obtain ⟨valid, -, t, loaded⟩ := loaded_of_both direct layered
    exact CircuitConfig.beq_of_loaded loaded (CircuitConfig.validate_eq_ok.1 valid)

theorem loaded_agree_on_zero :
    (ofYaml "trail:\n  scale: -0\n" = .ok ({ trail := { scale := -0.0 } } : FieldConfig) ∧
      withOverrides ({} : FieldConfig) "trail:\n  scale: -0\n" =
        .ok { trail := { scale := 0.0 } } ∧
      (({ trail := { scale := -0.0 } } : FieldConfig) == { trail := { scale := 0.0 } }) = true) ∧
    (ofYaml "tracks: 7\n" = .ok ({ tracks := 7 } : CircuitConfig) ∧
      withOverrides ({} : CircuitConfig) "tracks: 7\n" = .ok { tracks := 7 } ∧
      (({ tracks := 7 } : CircuitConfig) == { tracks := 7 }) = true) := by
  have scan : Yaml.Token.scan? "trail:\n  scale: -0\n" =
      some [.blockMapStart, .key, .scalar .plain "trail", .value, .blockMapStart, .key,
        .scalar .plain "scale", .value, .scalar .plain "-0", .blockEnd, .blockEnd] := by
    decide +kernel
  have direct : ofYaml "trail:\n  scale: -0\n" =
      .ok ({ trail := { scale := -0.0 } } : FieldConfig) := by
    refine checked_eq_ok.2 ⟨?_, rfl⟩
    rw [Tree.read?, scan]
    rfl
  have layered : withOverrides ({} : FieldConfig) "trail:\n  scale: -0\n" =
      .ok { trail := { scale := 0.0 } } := by
    refine withOverrides_eq_ok.2
      ⟨.map [(.text "trail", .map [(.text "scale", .count 0)])], ?_, rfl⟩
    rw [Tree.read?, scan]
    rfl
  have direct' : ofYaml "tracks: 7\n" = .ok ({ tracks := 7 } : CircuitConfig) := by
    refine checked_eq_ok.2 ⟨?_, rfl⟩
    rw [Tree.read?, scan?_tracks]
    rfl
  exact ⟨⟨direct, layered, loaded_agree.1 _ _ _ direct layered⟩,
    direct', withOverrides_tracks, loaded_agree.2 _ _ _ direct' withOverrides_tracks⟩

end AnimatedCanvas
