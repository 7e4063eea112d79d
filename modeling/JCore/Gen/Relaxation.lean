import JCore.Gen.Overlap

/-!
# Relaxed cubes

`relax-logic-set` takes out of a cube as many literals as it can while the cube meets none of
the constraints. It looks only at those literals that may be taken out one at a time, and this
loses nothing: a cube with fewer literals meets more.

## Main results

* `free_of_subset`: a cube with fewer literals meets more
* `mem_candidates`: every part of the cube that meets no constraint is a candidate
* `relaxation_fewest`: the result has the fewest literals of all those parts
-/

namespace JCore

namespace Gen

section Sets

variable {K V : Type*} [DecidableEq K] [DecidableEq V]
variable {logicSet a b : List (K × V)} {constraintSets : List (List (K × V))}

/-- A set with more entries overlaps no constraint that one with fewer does not. -/
theorem free_of_subset (constraints : ∀ c ∈ constraintSets, Consistent c) (hb : Consistent b)
    (sub : ∀ p ∈ a, p ∈ b) (free : overlapsSome constraintSets a = false) :
    overlapsSome constraintSets b = false := by
  rw [overlapsSome, List.any_eq_false] at free ⊢
  intro c hc overlaps
  have agree := (intersectsSets_iff hb (constraints c hc)).mp overlaps
  apply free c hc
  apply (intersectsSets_iff (hb.subset sub) (constraints c hc)).mpr
  intro k v w hv hw
  exact agree k v w (sub _ hv) hw

/-- What a part that overlaps no constraint leaves out may be left out one at a time. -/
theorem loose_of_not_mem (constraints : ∀ c ∈ constraintSets, Consistent c)
    (hset : Consistent logicSet) (sub : ∀ p ∈ a, p ∈ logicSet)
    (free : overlapsSome constraintSets a = false) {p : K × V} (hp : p ∉ a) :
    overlapsSome constraintSets (disj logicSet [p]) = false := by
  apply free_of_subset constraints (hset.subset fun q hq => (List.mem_filter.mp hq).1) ?_ free
  intro q hq
  have ne : q ≠ p := fun h => hp (h ▸ hq)
  exact List.mem_filter.mpr ⟨sub q hq, by simpa using ne⟩

/-- Every part of the set that overlaps no constraint is found among the candidates. -/
theorem mem_candidates (constraints : ∀ c ∈ constraintSets, Consistent c)
    (hset : Consistent logicSet) (sub : ∀ p ∈ a, p ∈ logicSet)
    (free : overlapsSome constraintSets a = false) :
    logicSet.filter (fun p => a.contains p) ∈ candidates logicSet constraintSets := by
  have loose := fun {p} => loose_of_not_mem (p := p) constraints hset sub free
  apply List.mem_filter.mpr
  constructor
  · -- the part remains without the loose entries that it leaves out
    apply List.mem_map.mpr
    refine ⟨_, mem_subsets (List.filter_sublist (p := fun p => !a.contains p)), ?_⟩
    apply List.filter_congr
    intro p hp
    rw [Bool.eq_iff_iff]
    simp only [List.contains_eq_mem, List.mem_filter, Bool.not_eq_true', decide_eq_true_eq,
      decide_eq_false_iff_not, not_and, not_not]
    constructor
    · intro h
      by_contra hpa
      exact hpa (h ⟨hp, loose hpa⟩)
    · exact fun h _ => h
  · rw [Bool.not_eq_true']
    apply free_of_subset constraints (hset.subset fun q hq => (List.mem_filter.mp hq).1) ?_ free
    intro q hq
    exact List.mem_filter.mpr ⟨sub q hq, by simpa using hq⟩

/-- The result is no longer than any part that overlaps no constraint. -/
theorem length_le_of_free (constraints : ∀ c ∈ constraintSets, Consistent c)
    (hset : Consistent logicSet) (nodup : logicSet.Nodup) {r : List (K × V)}
    (shortest : ∀ s ∈ candidates logicSet constraintSets, r.length ≤ s.length)
    (sub : ∀ p ∈ a, p ∈ logicSet) (free : overlapsSome constraintSets a = false) :
    r.length ≤ a.length := by
  refine (shortest _ (mem_candidates constraints hset sub free)).trans ?_
  -- the candidate has no entry twice, and all of its entries are in the part
  have within : logicSet.filter (fun p => a.contains p) ⊆ a := by
    intro p hp
    simpa using (List.mem_filter.mp hp).2
  exact ((nodup.filter _).subperm within).length_le

end Sets

/-! ### Cubes -/

variable {K : Type*} [DecidableEq K]

theorem intersectsSets_iff_meets (m m' : Cube K) :
    intersectsSets m.entries m'.entries = true ↔ m.Meets m' :=
  intersectsSets_iff_exists_sat (.of_nodup m.nodup) (.of_nodup m'.nodup)

instance (m m' : Cube K) : Decidable (m.Meets m') :=
  decidable_of_iff _ (intersectsSets_iff_meets m m')

theorem overlapsSome_eq_false_iff (m : Cube K) (constraints : List (Cube K)) :
    overlapsSome (constraints.map Cube.entries) m.entries = false ↔
      ∀ c ∈ constraints, ¬ m.Meets c := by
  rw [overlapsSome, List.any_eq_false, List.forall_mem_map]
  exact forall₂_congr fun c _ => not_congr (intersectsSets_iff_meets m c)

/-- A cube that meets no constraint is relaxed to one that contains it, meets none either, and
has the fewest literals of all the cubes that are left when literals of it are dropped. -/
theorem relaxation_fewest (cube : Cube K) (constraints : List (Cube K))
    (apart : ∀ c ∈ constraints, ¬ cube.Meets c) :
    ∃ r : Cube K, relaxLogicSet cube.entries (constraints.map Cube.entries) = some r.entries ∧
      r.entries ⊆ cube.entries ∧ cube.points ⊆ r.points ∧ (∀ c ∈ constraints, ¬ r.Meets c) ∧
        ∀ s : Cube K, s.entries ⊆ cube.entries → (∀ c ∈ constraints, ¬ s.Meets c) →
          r.entries.length ≤ s.entries.length := by
  obtain ⟨entries, hr, sublist, free, shortest⟩ :=
    exists_relaxLogicSet ((overlapsSome_eq_false_iff cube constraints).mpr apart)
  let r : Cube K := ⟨entries, (sublist.map Prod.fst).nodup cube.nodup⟩
  refine ⟨r, hr, sublist.subset, Cube.points_anti sublist.subset, ?_, ?_⟩
  · exact (overlapsSome_eq_false_iff r constraints).mp free
  · intro s sub hs
    have consistent : ∀ c ∈ constraints.map Cube.entries, Consistent c := by
      rw [List.forall_mem_map]
      exact fun c _ => .of_nodup c.nodup
    exact length_le_of_free consistent (.of_nodup cube.nodup) (List.Nodup.of_map _ cube.nodup)
      shortest (fun p hp => sub hp) ((overlapsSome_eq_false_iff s constraints).mpr hs)

/-- Bits 0, 1 and 2 are set. -/
def lowBits : Cube LogicVar := ⟨[(.i 0, true), (.i 1, true), (.i 2, true)], by decide⟩

/-- Two cubes in which bit 1 is clear. -/
def clearBits : List (Cube LogicVar) :=
  [⟨[(.i 0, false), (.i 1, false)], by decide⟩, ⟨[(.i 1, false), (.i 2, true)], by decide⟩]

/-- Bit 1 alone keeps them apart. -/
theorem relaxation_fewest_lowBits :
    (∃ r : Cube LogicVar, relaxLogicSet lowBits.entries (clearBits.map Cube.entries) =
      some r.entries ∧ r.entries ⊆ lowBits.entries ∧ lowBits.points ⊆ r.points ∧
        (∀ c ∈ clearBits, ¬ r.Meets c) ∧
          ∀ s : Cube LogicVar, s.entries ⊆ lowBits.entries → (∀ c ∈ clearBits, ¬ s.Meets c) →
            r.entries.length ≤ s.entries.length) ∧
      relaxLogicSet lowBits.entries (clearBits.map Cube.entries) = some [(.i 1, true)] :=
  ⟨relaxation_fewest lowBits clearBits (by decide), by decide⟩

end Gen

end JCore
