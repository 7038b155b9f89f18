import Mathlib.Data.Rat.Floor
import Mathlib.Tactic.Linarith
import TitanRunner.Lib.StableSort
import TitanRunner.Orchestrator.Graph

/-!
# The ranking of the models

`orchestrator/router.js`: every model that may take a task earns points for it, and the ranking
sorts by them.  A model whose pool is at capacity stands in the same order with no points, so one
that is available keeps ahead of it only while its own points do not run out.
-/

namespace TitanRunner

namespace Router

open Orchestrator (Candidate)
open Utf16

/-- The arithmetic of numbers: each result is the nearest double.  Whole numbers are doubles as
far as here. -/
structure Doubles where
  nearest : ℚ → ℚ
  mono : Monotone nearest
  whole : ∀ number : ℤ, |number| ≤ 2 ^ 53 → nearest number = number

/-- A share of successes. -/
structure Rate where
  value : ℚ
  nonneg : 0 ≤ value
  le_one : value ≤ 1

/-- `LATENCY_CLASSES` -/
inductive LatencyClass where
  | fast | medium | slow
  deriving DecidableEq, Repr

/-- `LATENCY_RANK[latencyClass] ?? LATENCY_RANK.medium` -/
def latencyRank : Option LatencyClass → Nat
  | some .fast => 2
  | some .slow => 0
  | some .medium | none => 1

inductive Hint where
  | fast | careful | cheap | any
  deriving DecidableEq, Repr

def Hint.name : Hint → Utf16
  | .fast => ofString "fast"
  | .careful => ofString "careful"
  | .cheap => ofString "cheap"
  | .any => ofString "any"

/-- `normalizeHint` -/
def normalizeHint (hint : Option Utf16) : Hint :=
  ((hint.bind fun word => [Hint.fast, .careful, .cheap, .any].find? fun hint =>
    hint.name = word)).getD .any

/-- `ROUTING_HINT_LATENCY_BONUS` -/
def routingHintLatencyBonus : Hint → ℚ
  | .fast => 15
  | _ => 0

/-- `ROUTING_HINT_OBSERVED_MULTIPLIER` -/
def routingHintObservedMultiplier : Hint → ℚ
  | .careful => 3 / 2
  | _ => 1

/-- What the weekly eval measured of a model in one category. -/
structure Measured where
  score : ℚ
  tasksRun : Int

/-- What was observed of a model in one category. -/
structure Observed where
  runs : Int
  successRate : Rate

/-- A record of the capability registry; a latency class that is not one of the list is none. -/
structure Capability where
  modelId : Utf16
  pool : Utf16
  strengths : List Utf16
  weaknesses : List Utf16
  latencyClass : Option LatencyClass
  measured : Utf16 → Option Measured := fun _ => none
  observed : Utf16 → Option Observed := fun _ => none

/-- What the ranking reads of a task. -/
structure Task where
  aspect : Utf16
  routingHint : Option Utf16 := none

structure RankedCandidate where
  modelId : Utf16
  pool : Utf16
  score : ℚ
  available : Bool
  latencyClass : Option LatencyClass
  latencyTiebreak : Nat
  reason : Utf16

section Score

variable (doubles : Doubles) (task : Task) (record : Capability)

/-- The measured score of the category, where it counts. -/
def Capability.measuredFor : Option Measured :=
  (record.measured task.aspect).filter fun measured => decide (0 < measured.tasksRun)

def Capability.observedFor : Option Observed :=
  (record.observed task.aspect).filter fun observed => decide (0 < observed.runs)

/-- `Math.round` -/
def mathRound (number : ℚ) : Int := ⌊number + 1 / 2⌋

def categoryScore : ℚ :=
  match record.measuredFor task with
  | some measured =>
      let x := doubles.nearest (doubles.nearest (2 * measured.score) - 1)
      mathRound (doubles.nearest (x * if 0 ≤ x then 100 else 50))
  | none =>
      if task.aspect ∈ record.strengths then 100
      else if task.aspect ∈ record.weaknesses then -50 else 0

def observedScore : ℚ :=
  match record.observedFor task with
  | some observed =>
      doubles.nearest (doubles.nearest (observed.successRate.value * 20) *
        routingHintObservedMultiplier (normalizeHint task.routingHint))
  | none => 0

def latencyBonus : ℚ :=
  doubles.nearest (doubles.nearest ((latencyRank record.latencyClass : ℚ) / 2) *
    routingHintLatencyBonus (normalizeHint task.routingHint))

/-- What a record earns: its category, its history and its latency. -/
def points : ℚ :=
  doubles.nearest (doubles.nearest (categoryScore doubles task record +
    observedScore doubles task record) + latencyBonus doubles task record)

def ofInt (number : Int) : Utf16 := ofString (toString number)

def quoted (text : Utf16) : Utf16 := ofString "\"" ++ text ++ ofString "\""

def reasonParts (available : Bool) : List Utf16 :=
  (match record.measuredFor task with
    | some measured =>
        [ofString "measured " ++ ofInt (mathRound (doubles.nearest (measured.score * 100))) ++
          ofString "% on the " ++ quoted task.aspect ++ ofString " eval, " ++
          ofInt measured.tasksRun ++ ofString " task" ++
          (if measured.tasksRun = 1 then [] else ofString "s")]
    | none =>
        if task.aspect ∈ record.strengths then [ofString "strength match on " ++ quoted task.aspect]
        else if task.aspect ∈ record.weaknesses then
          [ofString "known weakness in " ++ quoted task.aspect]
        else [ofString "no recorded strength/weakness for " ++ quoted task.aspect]) ++
    (match record.observedFor task with
      | some observed =>
          [ofInt (mathRound (doubles.nearest (observed.successRate.value * 100))) ++
            ofString "% observed success (" ++ ofInt observed.runs ++ ofString " runs)"]
      | none => []) ++
    (if normalizeHint task.routingHint = .any then []
      else [ofString "routing hint " ++ quoted (normalizeHint task.routingHint).name ++
        ofString " applied"]) ++
    if available then [] else [ofString "pool at capacity — excluded"]

def scoreCandidate (available : Bool) : RankedCandidate where
  modelId := record.modelId
  pool := record.pool
  score := if available then points doubles task record else 0
  available
  latencyClass := record.latencyClass
  latencyTiebreak := latencyRank record.latencyClass
  reason := join (ofString "; ") (reasonParts doubles task record available)

end Score

structure Adapter where
  inFlight : Int
  maxConcurrency : Int

structure Context where
  pools : Utf16 → Option Adapter
  capabilityRegistry : Utf16 → Capability
  excludePools : List Utf16 := []

/-- The models that are scored, each with whether its pool has room. -/
def considered (candidateModels : List Candidate) (ctx : Context) : List (Capability × Bool) :=
  candidateModels.filterMap fun candidate =>
    if candidate.pool ∈ ctx.excludePools then none
    else
      (ctx.pools candidate.pool).map fun adapter =>
        (ctx.capabilityRegistry candidate.modelId, decide (adapter.inFlight < adapter.maxConcurrency))

/-- The order the ranking is sorted by: the score, and between equal ones the latency. -/
def Before (first second : RankedCandidate) : Prop :=
  second.score < first.score ∨
    first.score = second.score ∧ second.latencyTiebreak ≤ first.latencyTiebreak

instance decidableBefore : DecidableRel Before := fun first second =>
  inferInstanceAs (Decidable (second.score < first.score ∨
    first.score = second.score ∧ second.latencyTiebreak ≤ first.latencyTiebreak))

def rankModels (doubles : Doubles) (task : Task) (candidateModels : List Candidate)
    (ctx : Context) : List RankedCandidate :=
  ((considered candidateModels ctx).map fun entry =>
    scoreCandidate doubles task entry.1 entry.2).insertionSort Before

def selectModel (doubles : Doubles) (task : Task) (candidateModels : List Candidate)
    (ctx : Context) : Option RankedCandidate :=
  (rankModels doubles task candidateModels ctx).head?

/-! ## What the points say -/

section Points

variable (doubles : Doubles) (task : Task) (record : Capability)

theorem Doubles.nonneg {number : ℚ} (known : 0 ≤ number) : 0 ≤ doubles.nearest number := by
  have zero := doubles.whole 0 (by norm_num)
  rw [Int.cast_zero] at zero
  exact zero ▸ doubles.mono known

/-- A bound that is a whole number is kept by rounding. -/
theorem Doubles.le_whole {number : ℚ} (bound : ℤ) (small : |bound| ≤ 2 ^ 53) (known : number ≤ bound) :
    doubles.nearest number ≤ bound :=
  doubles.whole bound small ▸ doubles.mono known

theorem Doubles.whole_le {number : ℚ} (bound : ℤ) (small : |bound| ≤ 2 ^ 53) (known : bound ≤ number) :
    bound ≤ doubles.nearest number :=
  doubles.whole bound small ▸ doubles.mono known

theorem routingHintObservedMultiplier_bounds (hint : Hint) :
    0 ≤ routingHintObservedMultiplier hint ∧ routingHintObservedMultiplier hint ≤ 3 / 2 := by
  cases hint <;> norm_num [routingHintObservedMultiplier]

theorem routingHintLatencyBonus_bounds (hint : Hint) :
    0 ≤ routingHintLatencyBonus hint ∧ routingHintLatencyBonus hint ≤ 15 := by
  cases hint <;> norm_num [routingHintLatencyBonus]

theorem observedScore_bounds :
    0 ≤ observedScore doubles task record ∧ observedScore doubles task record ≤ 30 := by
  rw [observedScore]
  cases record.observedFor task with
  | none => norm_num
  | some observed =>
      obtain ⟨low, high⟩ := routingHintObservedMultiplier_bounds (normalizeHint task.routingHint)
      have rate := observed.successRate.nonneg
      have rate' := observed.successRate.le_one
      have nonneg : 0 ≤ doubles.nearest (observed.successRate.value * 20) :=
        doubles.nonneg (by linarith)
      have most : doubles.nearest (observed.successRate.value * 20) ≤ (20 : ℤ) :=
        doubles.le_whole 20 (by norm_num) (by push_cast; linarith)
      constructor
      · exact doubles.nonneg (mul_nonneg nonneg low)
      · have bound := doubles.le_whole 30 (by norm_num)
          ((mul_le_mul most high low (by norm_num)).trans (by norm_num))
        simpa using bound

theorem latencyBonus_bounds :
    0 ≤ latencyBonus doubles task record ∧ latencyBonus doubles task record ≤ 15 := by
  obtain ⟨low, high⟩ := routingHintLatencyBonus_bounds (normalizeHint task.routingHint)
  have rank : (latencyRank record.latencyClass : ℚ) / 2 ≤ (1 : ℤ) := by
    have small : latencyRank record.latencyClass ≤ 2 := by
      cases record.latencyClass with
      | none => decide
      | some latencyClass => cases latencyClass <;> decide
    have small' : (latencyRank record.latencyClass : ℚ) ≤ 2 := by exact_mod_cast small
    push_cast
    linarith
  have nonneg : 0 ≤ doubles.nearest ((latencyRank record.latencyClass : ℚ) / 2) :=
    doubles.nonneg (by positivity)
  have most := doubles.le_whole 1 (by norm_num) rank
  constructor
  · exact doubles.nonneg (mul_nonneg nonneg low)
  · have bound := doubles.le_whole 15 (by norm_num)
      ((mul_le_mul most high low (by norm_num)).trans (by norm_num))
    simpa [latencyBonus] using bound

variable {doubles task record}

/-- The points lie between those of the category and 45 more, for bounds that are doubles. -/
theorem whole_le_points (category : ℤ) (small : |category| ≤ 2 ^ 53)
    (earned : category ≤ categoryScore doubles task record) :
    category ≤ points doubles task record := by
  have observed := (observedScore_bounds doubles task record).1
  have bonus := (latencyBonus_bounds doubles task record).1
  have first := doubles.whole_le category small (earned.trans (le_add_of_nonneg_right observed))
  exact doubles.whole_le category small (first.trans (le_add_of_nonneg_right bonus))

theorem points_le_whole (category : ℤ) (small : |category| ≤ 1000)
    (earned : categoryScore doubles task record ≤ category) :
    points doubles task record ≤ category + 45 := by
  have observed := (observedScore_bounds doubles task record).2
  have bonus := (latencyBonus_bounds doubles task record).2
  obtain ⟨low, high⟩ := abs_le.1 small
  have first := doubles.le_whole (category + 30)
    (abs_le.2 ⟨by linarith, by linarith⟩) (by push_cast; exact add_le_add earned observed)
  have second := doubles.le_whole (category + 45)
    (abs_le.2 ⟨by linarith, by linarith⟩)
    (by push_cast at first ⊢; linarith : doubles.nearest (categoryScore doubles task record +
      observedScore doubles task record) + latencyBonus doubles task record ≤ (category + 45 : ℤ))
  exact_mod_cast second

theorem points_of_strength (unmeasured : record.measuredFor task = none)
    (strength : task.aspect ∈ record.strengths) : 100 ≤ points doubles task record := by
  have earned : categoryScore doubles task record = 100 := by
    rw [categoryScore, unmeasured]
    exact if_pos strength
  exact_mod_cast whole_le_points 100 (by norm_num) (by rw [earned]; norm_num)

theorem points_of_no_strength (unmeasured : record.measuredFor task = none)
    (strength : task.aspect ∉ record.strengths) : points doubles task record ≤ 45 := by
  have earned : categoryScore doubles task record ≤ (0 : ℤ) := by
    rw [categoryScore, unmeasured]
    dsimp only
    rw [if_neg strength]
    split <;> norm_num
  have bound := points_le_whole 0 (by norm_num) earned
  simpa using bound

end Points

/-! ## The order of weight -/

/-- No model at capacity stands ahead of an available one. -/
def AvailableFirst (ranked : List RankedCandidate) : Prop :=
  ranked.Pairwise fun first second => second.available = true → first.available = true

/-- The chosen model is at capacity only if all are. -/
def ChoosesAvailable (ranked : List RankedCandidate) (chosen : Option RankedCandidate) : Prop :=
  ∀ best, chosen = some best → best.available = false →
    ∀ candidate ∈ ranked, candidate.available = false

/-- No available model without a strength match stands ahead of one with it, where neither has
a measured score. -/
def StrengthsFirst (doubles : Doubles) (task : Task) (ranked : List RankedCandidate) : Prop :=
  ranked.Pairwise fun first second => ∀ plain strong : Capability,
    first = scoreCandidate doubles task plain true →
    second = scoreCandidate doubles task strong true →
    plain.measuredFor task = none → strong.measuredFor task = none →
    task.aspect ∈ strong.strengths → task.aspect ∈ plain.strengths

/-- What an available model needs to keep ahead of one at capacity: points, or none and a latency
that is not worse, and better where it is listed behind. -/
def KeepsAhead (doubles : Doubles) (task : Task) (record other : Capability) (listedFirst : Bool) :
    Prop :=
  0 < points doubles task record ∨ points doubles task record = 0 ∧
    if listedFirst then latencyRank other.latencyClass ≤ latencyRank record.latencyClass
    else latencyRank other.latencyClass < latencyRank record.latencyClass

def AllKeepAhead (doubles : Doubles) (task : Task) (entries : List (Capability × Bool)) : Prop :=
  entries.Pairwise fun first second =>
    (first.2 = true → second.2 = false → KeepsAhead doubles task first.1 second.1 true) ∧
      (first.2 = false → second.2 = true → KeepsAhead doubles task second.1 first.1 false)

instance total_before : Std.Total Before where
  total first second := by
    rw [Before, Before]
    rcases lt_trichotomy first.score second.score with less | same | more
    · exact .inr (.inl less)
    · cases Nat.le_total second.latencyTiebreak first.latencyTiebreak with
      | inl fewer => exact .inl (.inr ⟨same, fewer⟩)
      | inr more => exact .inr (.inr ⟨same.symm, more⟩)
    · exact .inl (.inl more)

instance trans_before : IsTrans RankedCandidate Before where
  trans first second third early late := by
    rw [Before] at *
    rcases early with higher | ⟨same, faster⟩
    · rcases late with higher' | ⟨same', -⟩
      · exact .inl (higher'.trans higher)
      · exact .inl (same' ▸ higher)
    · rcases late with higher' | ⟨same', faster'⟩
      · exact .inl (same ▸ higher')
      · exact .inr ⟨same.trans same', faster'.trans faster⟩

section Ranking

variable {doubles : Doubles} {task : Task} {candidateModels : List Candidate} {ctx : Context}

theorem before_of_available (record other : Capability) :
    Before (scoreCandidate doubles task record true) (scoreCandidate doubles task other false) ↔
      KeepsAhead doubles task record other true := Iff.rfl

theorem not_before_of_available (record other : Capability) :
    ¬ Before (scoreCandidate doubles task other false) (scoreCandidate doubles task record true) ↔
      KeepsAhead doubles task record other false := by
  simp only [Before, scoreCandidate, KeepsAhead, if_true, Bool.false_eq_true, if_false, not_or,
    not_lt, not_and, not_le]
  constructor
  · rintro ⟨enough, faster⟩
    cases enough.lt_or_eq with
    | inl more => exact .inl more
    | inr same => exact .inr ⟨same.symm, faster same⟩
  · intro keeps
    rcases keeps with more | ⟨same, faster⟩
    · exact ⟨more.le, fun same => absurd same more.ne⟩
    · exact ⟨same.ge, fun _ => faster⟩

/-- The models at capacity stand behind exactly when all available ones keep ahead of them. -/
theorem availableFirst_iff : AvailableFirst (rankModels doubles task candidateModels ctx) ↔
    AllKeepAhead doubles task (considered candidateModels ctx) := by
  rw [AvailableFirst, rankModels, StableSort.pairwise_insertionSort_iff, List.pairwise_map,
    AllKeepAhead]
  apply iff_of_eq
  congr 1
  funext first second
  obtain ⟨record, room⟩ := first
  obtain ⟨record', room'⟩ := second
  cases room <;> cases room'
  · simp [scoreCandidate]
  · have order := @not_before_of_available doubles task record' record
    simp only [← order]
    simp [scoreCandidate]
  · have order := @before_of_available doubles task record record'
    simp only [← order]
    simp [scoreCandidate]
  · simp [scoreCandidate]

theorem chooses_of_availableFirst
    (first : AvailableFirst (rankModels doubles task candidateModels ctx)) :
    ChoosesAvailable (rankModels doubles task candidateModels ctx)
      (selectModel doubles task candidateModels ctx) := by
  intro best chosen full candidate inside
  rw [selectModel] at chosen
  obtain ⟨rest, ranked⟩ := List.head?_eq_some_iff.1 chosen
  rw [AvailableFirst, ranked, List.pairwise_cons] at first
  rw [ranked] at inside
  cases List.mem_cons.1 inside with
  | inl same => rw [same, full]
  | inr later =>
      rw [Bool.eq_false_iff]
      intro room
      rw [first.1 candidate later room] at full
      contradiction

theorem strengthsFirst (doubles : Doubles) (task : Task) (candidateModels : List Candidate)
    (ctx : Context) : StrengthsFirst doubles task (rankModels doubles task candidateModels ctx) := by
  have sorted := List.pairwise_insertionSort Before
    ((considered candidateModels ctx).map fun entry => scoreCandidate doubles task entry.1 entry.2)
  refine sorted.imp fun before plain strong isPlain isStrong unmeasured unmeasured' matches' => ?_
  by_contra misses
  have low := @points_of_no_strength doubles task plain unmeasured misses
  have high := @points_of_strength doubles task strong unmeasured' matches'
  rw [isPlain, isStrong, Before] at before
  simp only [scoreCandidate, if_true] at before
  rcases before with less | ⟨same, -⟩ <;> linarith

/-- The ranking keeps the order of weight exactly when every available model keeps ahead of the
models at capacity; that a strength match decides among the others needs nothing. -/
theorem keepsWeights_iff (doubles : Doubles) (task : Task) (candidateModels : List Candidate)
    (ctx : Context) :
    (AvailableFirst (rankModels doubles task candidateModels ctx) ∧
        ChoosesAvailable (rankModels doubles task candidateModels ctx)
          (selectModel doubles task candidateModels ctx) ∧
        StrengthsFirst doubles task (rankModels doubles task candidateModels ctx)) ↔
      AllKeepAhead doubles task (considered candidateModels ctx) := by
  rw [← availableFirst_iff]
  constructor
  · exact fun all => all.1
  · exact fun first =>
      ⟨first, chooses_of_availableFirst first, strengthsFirst doubles task candidateModels ctx⟩

end Ranking

section Example

/-- Numbers without rounding. -/
def Doubles.exact : Doubles where
  nearest := id
  mono := monotone_id
  whole _ _ := rfl

def weak : Capability where
  modelId := ofString "weak"
  pool := ofString "free"
  strengths := []
  weaknesses := [ofString "testing"]
  latencyClass := some .fast

def plain : Capability where
  modelId := ofString "plain"
  pool := ofString "full"
  strengths := []
  weaknesses := []
  latencyClass := some .slow

/-- Two pools of one model each, and only the first has room. -/
def twoPools : Context where
  pools name := if name = ofString "free" then some ⟨0, 1⟩ else some ⟨1, 1⟩
  capabilityRegistry modelId := if modelId = ofString "weak" then weak else plain

def testing : Task := ⟨ofString "testing", none⟩

def weakAndPlain : List Candidate :=
  [⟨ofString "weak", ofString "free"⟩, ⟨ofString "plain", ofString "full"⟩]

/-- A model with a known weakness is available, and the one at capacity is chosen. -/
theorem not_keepsWeights_full :
    (selectModel .exact testing weakAndPlain twoPools).map RankedCandidate.modelId =
        some (ofString "plain") ∧
      ¬ (AvailableFirst (rankModels .exact testing weakAndPlain twoPools) ∧
        ChoosesAvailable (rankModels .exact testing weakAndPlain twoPools)
          (selectModel .exact testing weakAndPlain twoPools) ∧
        StrengthsFirst .exact testing (rankModels .exact testing weakAndPlain twoPools)) := by
  refine ⟨by decide +kernel, ?_⟩
  rintro ⟨first, -, -⟩
  have rooms : (rankModels .exact testing weakAndPlain twoPools).map RankedCandidate.available =
      [false, true] := by decide +kernel
  have behind : (((rankModels .exact testing weakAndPlain twoPools).map
      RankedCandidate.available).Pairwise fun first second => second = true → first = true) :=
    List.pairwise_map.2 (by rwa [AvailableFirst] at first)
  rw [rooms] at behind
  revert behind
  decide

end Example

end Router

end TitanRunner
