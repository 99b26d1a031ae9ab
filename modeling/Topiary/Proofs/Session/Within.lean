import Topiary.Proofs.Session.Steps

set_option autoImplicit false

/-!
# Parameters never leave their ranges

A setter sets what has passed the check of its range and nothing else. A choice of species and a
restart check nothing, but what they set comes from the catalog and from the settings, whose
defaults lie in the ranges. So the angle and the step of a session that begins with the defaults
and chooses from the catalog alone can always be drawn with.
-/

namespace Topiary

/-! ## Bounds -/

namespace Bounds

def Admits (bounds : Bounds) (value : Value) : Prop :=
  bounds.low.atMost? value = some true ∧ value.atMost? bounds.high = some true

def AdmitsReal (bounds : Bounds) (value : Value) : Prop :=
  ∃ number : Float, value = .real number ∧ number.isFinite = true ∧ bounds.Admits value

variable {low number high : Float} (lowFinite : low.isFinite = true)
  (highFinite : high.isFinite = true)

include lowFinite highFinite

theorem admitsReal_of_between (above : low ≤ number) (below : number ≤ high) :
    AdmitsReal ⟨.real low, .real high⟩ (.real number) :=
  ⟨number, rfl, Numeral.Number.isFinite_of_between lowFinite highFinite above below,
    Value.atMost?_real above, Value.atMost?_real below⟩

theorem admitsReal_of_realInRange {name : String} {value checked : Value}
    (fit : WholesFit low high)
    (passed : Session.realInRange name value ⟨.real low, .real high⟩ = .ok checked) :
    AdmitsReal ⟨.real low, .real high⟩ checked := by
  obtain ⟨number, rfl, above, below⟩ := Session.realInRange_eq_ok fit passed
  exact admitsReal_of_between lowFinite highFinite above below

end Bounds

theorem Catalog.admits_defaults {species : Species} (member : species ∈ Catalog.all) :
    Settings.standard.angleRange.AdmitsReal species.defaultAngle ∧
      Settings.standard.stepRange.AdmitsReal species.defaultStep := by
  have between : ∀ species ∈ Catalog.all, ∃ angle step : Float,
      species.defaultAngle = .real angle ∧ species.defaultStep = .real step ∧
        (10.0 ≤ angle ∧ angle ≤ 45.0) ∧ 0.5 ≤ step ∧ step ≤ 2.0 := by
    simp only [Catalog.all, List.forall_mem_cons]
    refine ⟨?_, ?_, ?_, ?_, ?_, List.forall_mem_nil _⟩
    all_goals exact ⟨_, _, rfl, rfl, by decide +kernel⟩
  obtain ⟨angle, step, isAngle, isStep, angleInside, stepInside⟩ := between species member
  rw [isAngle, isStep]
  exact ⟨Bounds.admitsReal_of_between rfl rfl angleInside.1 angleInside.2,
    Bounds.admitsReal_of_between rfl rfl stepInside.1 stepInside.2⟩

namespace Session

variable {session next : Session} {operation : Operation} {operations : List Operation}

/-- Every parameter of a session has the right kind and lies in its range. -/
structure WithinRanges (session : Session) : Prop where
  iterations : ∃ count, session.iterations = .int count ∧
    Settings.standard.iterationsRange.Admits (.int count)
  angle : Settings.standard.angleRange.AdmitsReal session.angle
  stepSize : Settings.standard.stepRange.AdmitsReal session.stepSize
  thickness : Settings.standard.thicknessRange.AdmitsReal session.thickness

namespace WithinRanges

theorem drawingParameters (within : session.WithinRanges) :
    ∃ radians length, Topiary.drawingParameters session.angle session.stepSize =
      .ok (radians, length) := by
  obtain ⟨angle, isAngle, angleFinite, -⟩ := within.angle
  obtain ⟨stepSize, isStepSize, stepFinite, -⟩ := within.stepSize
  rw [isAngle, isStepSize]
  exact ⟨_, _, drawingParameters_real angleFinite stepFinite⟩

/-! ## Settings that are not checked -/

theorem admits_defaultIterations : ∃ count,
    Value.int Settings.standard.defaultIterations = .int count ∧
      Settings.standard.iterationsRange.Admits (.int count) :=
  ⟨_, rfl, Value.atMost?_int (by decide), Value.atMost?_int (by decide)⟩

theorem admitsReal_defaultThickness : Settings.standard.thicknessRange.AdmitsReal
    (.real Settings.standard.defaultThickness) :=
  Bounds.admitsReal_of_between rfl rfl (by decide +kernel) (by decide +kernel)

theorem choose (within : session.WithinRanges) {species : Species}
    (member : species ∈ Catalog.all) : (session.choose species).WithinRanges :=
  ⟨within.iterations, (Catalog.admits_defaults member).1, (Catalog.admits_defaults member).2,
    within.thickness⟩

theorem restart (member : session.species ∈ Catalog.all) : session.restart.WithinRanges :=
  ⟨admits_defaultIterations, (Catalog.admits_defaults member).1,
    (Catalog.admits_defaults member).2, admitsReal_defaultThickness⟩

theorem initial : Session.initial.WithinRanges :=
  (restart List.mem_cons_self : Session.initial.restart.WithinRanges)

/-! ## All operations -/

theorem of_effect (within : session.WithinRanges) (member : session.species ∈ Catalog.all)
    (catalog : ∀ species, operation = .choose species → species ∈ Catalog.all)
    (effect : session.Effect next operation) : next.WithinRanges := by
  cases operation with
  | choose species =>
      cases effect
      exact within.choose (catalog species rfl)
  | withIterations value =>
      obtain ⟨count, rfl, checked, rfl⟩ := effect
      obtain ⟨-, inside⟩ := checkBounds_eq_ok checked
      exact { within with iterations := ⟨count, rfl, inside⟩ }
  | withAngle value =>
      obtain ⟨angle, checked, rfl⟩ := effect
      exact { within with
        angle := Bounds.admitsReal_of_realInRange rfl rfl wholesFit_angle checked }
  | withStepSize value =>
      obtain ⟨stepSize, checked, rfl⟩ := effect
      exact { within with
        stepSize := Bounds.admitsReal_of_realInRange rfl rfl wholesFit_step checked }
  | withThickness value =>
      obtain ⟨thickness, checked, rfl⟩ := effect
      exact { within with
        thickness := Bounds.admitsReal_of_realInRange rfl rfl wholesFit_thickness checked }
  | wholeTree | trimmedTree | comparison =>
      rw [effect]
      exact { within with }
  | prune id =>
      obtain ⟨-, rfl⟩ | ⟨grown, between, whole, rfl⟩ := effect
      · exact within
      · rw [mirrors_wholeTree whole]
        exact { within with }
  | forgetPruned =>
      cases effect
      exact { within with }
  | restart =>
      cases effect
      exact restart member

theorem afterAll (within : session.WithinRanges) (member : session.species ∈ Catalog.all)
    (catalog : ∀ species, .choose species ∈ operations → species ∈ Catalog.all) :
    (session.afterAll operations).WithinRanges := by
  induction operations generalizing session with
  | nil => exact within
  | cons operation rest ih =>
      have first : ∀ species, operation = .choose species → species ∈ Catalog.all :=
        fun species same => catalog species (same ▸ List.mem_cons_self)
      have others : ∀ species, .choose species ∈ rest → species ∈ Catalog.all :=
        fun species later => catalog species (List.mem_cons_of_mem _ later)
      rw [afterAll_cons]
      rcases effect_after session operation with unchanged | effect
      · rw [unchanged]
        exact ih within member others
      -- A restart takes the defaults of the species, which must still be one of the catalog.
      · refine ih (within.of_effect member first effect) ?_ others
        rcases effect.species_cases with ⟨species, same, chosen⟩ | ⟨sameSpecies, -⟩
        · rw [chosen]
          exact first species same
        · rwa [sameSpecies]

end WithinRanges

/-- Whatever is done with a session that begins with the defaults, all parameters stay in their
ranges, as long as species come from the catalog: a setter that is given anything else fails and
changes nothing. With the angle and the step a tree can be drawn. -/
theorem withinRanges_afterAll
    (catalog : ∀ species, .choose species ∈ operations → species ∈ Catalog.all) :
    (initial.afterAll operations).WithinRanges ∧
      ∃ radians length, drawingParameters (initial.afterAll operations).angle
        (initial.afterAll operations).stepSize = .ok (radians, length) := by
  have within := WithinRanges.initial.afterAll List.mem_cons_self catalog
  exact ⟨within, within.drawingParameters⟩

/-- Setters are given a non-number, too large a number, a text, a truth value and a whole number. -/
theorem withinRanges_afterAll_setters :
    let operations : List Operation := [.withAngle (.real (0.0 / 0.0)), .choose Catalog.birch,
      .withIterations (.int 8), .withThickness (.text "1"), .withStepSize (.bool true),
      .withAngle (.int 45), .prune "root-0", .restart]
    (∀ species, .choose species ∈ operations → species ∈ Catalog.all) ∧
      (initial.afterAll operations).WithinRanges := by
  intro operations
  have catalog : ∀ species, .choose species ∈ operations → species ∈ Catalog.all := by
    intro species member
    obtain rfl : species = Catalog.birch := by simpa [operations] using member
    exact List.mem_cons_of_mem _ List.mem_cons_self
  exact ⟨catalog, (withinRanges_afterAll catalog).1⟩

end Session

end Topiary
