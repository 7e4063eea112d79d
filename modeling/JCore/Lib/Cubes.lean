import Mathlib.Data.List.Zip
import Mathlib.Data.Set.Basic

/-!
# Cubes

A cube fixes the values of some variables, as a list of pairs of a variable and its
value. Over a fixed list of variables a cube is a term, with one entry for each, empty
where the cube leaves the variable free. The set of assignments is the same.
-/

namespace JCore

variable {α : Type*} [DecidableEq α]

theorem mem_of_lookup {β : Type*} {l : List (α × β)} {v : α} {b : β} (h : l.lookup v = some b) :
    (v, b) ∈ l := by
  obtain ⟨l₁, l₂, rfl, -⟩ := List.lookup_eq_some_iff.mp h
  simp

/-- The assignment has the values that the cube fixes. -/
def Sat (σ : α → Bool) (m : List (α × Bool)) : Prop := ∀ v b, m.lookup v = some b → σ v = b

theorem sat_append {σ : α → Bool} {m m' : List (α × Bool)}
    (apart : ∀ v b, m'.lookup v = some b → m.lookup v = none) :
    Sat σ (m ++ m') ↔ Sat σ m ∧ Sat σ m' := by
  constructor
  · refine fun h => ⟨fun v b hv => h v b ?_, fun v b hv => h v b ?_⟩
    · rw [List.lookup_append, hv, Option.some_or]
    · rw [List.lookup_append, apart v b hv, Option.none_or, hv]
  · intro h v b hv
    rw [List.lookup_append] at hv
    rcases hm : m.lookup v with _ | b'
    · rw [hm, Option.none_or] at hv
      exact h.2 v b hv
    · rw [hm, Option.some_or] at hv
      exact h.1 v b (hm.trans hv)

/-! ### Terms -/

/-- The term covers the values. -/
def Covers (t : List (Option Bool)) (bits : List Bool) : Prop :=
  ∀ p ∈ t.zip bits, p.1 = none ∨ p.1 = some p.2

/-- The cube as a term over the variables. -/
def termOf (vars : List α) (m : List (α × Bool)) : List (Option Bool) := vars.map fun v => m.lookup v

/-- The cube of a term. -/
def cubeOf (vars : List α) (t : List (Option Bool)) : List (α × Bool) :=
  (vars.zip t).filterMap fun (v, b) => b.map fun b => (v, b)

theorem length_termOf (vars : List α) (m : List (α × Bool)) :
    (termOf vars m).length = vars.length := List.length_map _

/-- A cube covers what its term covers, if the term has all its variables. -/
theorem covers_termOf {vars : List α} {m : List (α × Bool)} (h : ∀ p ∈ m, p.1 ∈ vars)
    (σ : α → Bool) : Covers (termOf vars m) (vars.map σ) ↔ Sat σ m := by
  have hzip : ∀ p, p ∈ (termOf vars m).zip (vars.map σ) ↔ ∃ v ∈ vars, (m.lookup v, σ v) = p := by
    intro p
    rw [termOf, List.zip_map', List.mem_map]
  constructor
  · intro hcovers v b hv
    have hmem : v ∈ vars := h (v, b) (mem_of_lookup hv)
    rcases hcovers _ ((hzip _).mpr ⟨v, hmem, rfl⟩) with hnone | hsome
    · rw [hv] at hnone
      exact absurd hnone (Option.some_ne_none b)
    · exact Option.some.inj (hsome.symm.trans hv)
  · intro hsat p hp
    obtain ⟨v, -, rfl⟩ := (hzip p).mp hp
    rcases hv : m.lookup v with _ | b
    · exact .inl rfl
    · exact .inr (congrArg some (hsat v b hv).symm)

/-- A cube without a variable twice fixes what it says of each. -/
theorem all_iff_sat {σ : α → Bool} {m : List (α × Bool)} (nodup : (m.map Prod.fst).Nodup) :
    (m.all fun p => σ p.1 == p.2) = true ↔ Sat σ m := by
  rw [List.all_eq_true]
  constructor
  · exact fun h v b hv => eq_of_beq (h (v, b) (mem_of_lookup hv))
  · rintro h ⟨v, b⟩ hp
    refine beq_iff_eq.mpr (h v b ?_)
    obtain ⟨l₁, l₂, rfl⟩ := List.append_of_mem hp
    refine List.lookup_eq_some_iff.mpr ⟨l₁, l₂, rfl, fun q hq => ?_⟩
    rw [List.map_append, List.map_cons] at nodup
    refine bne_iff_ne.mpr fun eq => ?_
    exact (List.nodup_append.mp nodup).2.2 q.1 (List.mem_map_of_mem hq) v List.mem_cons_self eq.symm

omit [DecidableEq α] in
/-- The cube of a term has no variable twice. -/
theorem nodup_cubeOf {vars : List α} (nodup : vars.Nodup) (t : List (Option Bool)) :
    ((cubeOf vars t).map Prod.fst).Nodup := by
  refine List.Nodup.sublist ?_ nodup
  induction vars generalizing t with
  | nil => exact List.Sublist.refl _
  | cons v vars ih =>
    cases t with
    | nil => exact List.nil_sublist _
    | cons b t =>
      specialize ih (List.nodup_cons.mp nodup).2 t
      cases b with
      | none => exact ih.cons v
      | some b => exact ih.cons_cons v

omit [DecidableEq α] in
theorem fst_mem_of_mem_cubeOf {vars : List α} {t : List (Option Bool)} {p : α × Bool}
    (h : p ∈ cubeOf vars t) : p.1 ∈ vars := by
  obtain ⟨⟨v, b⟩, hzip, hp⟩ := List.mem_filterMap.mp h
  obtain ⟨b', -, rfl⟩ := Option.map_eq_some_iff.mp hp
  exact (List.of_mem_zip hzip).1

omit [DecidableEq α] in
/-- The cube of a term fixes what the term does. -/
theorem all_cubeOf (vars : List α) (t : List (Option Bool)) (σ : α → Bool) :
    ((cubeOf vars t).all fun p => σ p.1 == p.2) = true ↔ Covers t (vars.map σ) := by
  rw [List.all_eq_true]
  induction vars generalizing t with
  | nil => simp [cubeOf, Covers]
  | cons v vars ih =>
    cases t with
    | nil => simp [cubeOf, Covers]
    | cons b t =>
      specialize ih t
      simp only [Covers, cubeOf, List.map_cons, List.zip_cons_cons, List.forall_mem_cons] at ih ⊢
      rw [← ih]
      cases b with
      | none => simp
      | some b =>
        simp only [Option.map_some, List.filterMap_cons, List.forall_mem_cons, beq_iff_eq,
          reduceCtorEq, false_or, Option.some.injEq]
        exact and_congr_left' eq_comm

/-! ### Well-formed cubes -/

/-- A cube that fixes no variable twice. -/
structure Cube (α : Type*) where
  entries : List (α × Bool)
  nodup : (entries.map Prod.fst).Nodup

namespace Cube

variable (m m' c : Cube α)

/-- The assignments of the cube. -/
def points : Set (α → Bool) := {σ | Sat σ m.entries}

/-- Two cubes have an assignment in common. -/
def Meets : Prop := (m.points ∩ m'.points).Nonempty

variable {m m' c}

theorem mem_points_iff {σ : α → Bool} : σ ∈ m.points ↔ ∀ p ∈ m.entries, σ p.1 = p.2 := by
  change Sat σ m.entries ↔ _
  rw [← all_iff_sat m.nodup, List.all_eq_true]
  exact forall₂_congr fun p _ => beq_iff_eq

/-- A cube with fewer entries contains more assignments. -/
theorem points_anti (sub : m.entries ⊆ m'.entries) : m'.points ⊆ m.points := by
  intro σ hσ
  rw [mem_points_iff] at hσ ⊢
  intro p hp
  exact hσ p (sub hp)

end Cube

/-! ### Reduction -/

/-- A reduction of lists of terms keeps the number of variables, and the values that the
terms of the list cover together. -/
structure ExactReduction (reduce : List (List (Option Bool)) → List (List (Option Bool))) :
    Prop where
  length : ∀ n ts, (∀ t ∈ ts, t.length = n) → ∀ t ∈ reduce ts, t.length = n
  covers : ∀ n ts, (∀ t ∈ ts, t.length = n) → ∀ bits : List Bool, bits.length = n →
    ((∃ t ∈ reduce ts, Covers t bits) ↔ ∃ t ∈ ts, Covers t bits)

theorem exactReduction_id : ExactReduction id :=
  ⟨fun _ _ h => h, fun _ _ _ _ _ => Iff.rfl⟩

/-- A reduction that keeps what the terms of cubes cover among some assignments, and may
cover others or not. -/
def ExactOn (reduce : List (List (Option Bool)) → List (List (Option Bool)))
    (care : (α → Bool) → Prop) : Prop :=
  ∀ (vars : List α) (cubes : List (List (α × Bool))) (σ : α → Bool), care σ →
    ((∃ t ∈ reduce (cubes.map (termOf vars)), Covers t (vars.map σ)) ↔
      ∃ t ∈ cubes.map (termOf vars), Covers t (vars.map σ))

theorem exactOn_id (care : (α → Bool) → Prop) : ExactOn id care := fun _ _ _ _ => Iff.rfl

theorem ExactReduction.exactOn {reduce : List (List (Option Bool)) → List (List (Option Bool))}
    (exact : ExactReduction reduce) (care : (α → Bool) → Prop) : ExactOn reduce care :=
  fun vars _ σ _ => exact.covers vars.length _
    (List.forall_mem_map.mpr fun m _ => length_termOf vars m) (vars.map σ) (List.length_map _)

/-- The reduced cubes hold of the assignments of which the cubes do. -/
theorem ExactOn.exists_all_iff
    {reduce : List (List (Option Bool)) → List (List (Option Bool))} {care : (α → Bool) → Prop}
    (exact : ExactOn reduce care) {vars : List α} {cubes : List (List (α × Bool))}
    (hvars : ∀ m ∈ cubes, ∀ p ∈ m, p.1 ∈ vars) {σ : α → Bool} (hσ : care σ) :
    (∃ m ∈ (reduce (cubes.map (termOf vars))).map (cubeOf vars),
      (m.all fun p => σ p.1 == p.2) = true) ↔ ∃ m ∈ cubes, Sat σ m := by
  have hcovers := exact vars cubes σ hσ
  simp only [List.mem_map, exists_exists_and_eq_and, all_cubeOf] at hcovers ⊢
  refine hcovers.trans (exists_congr fun m => and_congr_right fun hm => ?_)
  exact covers_termOf (hvars m hm) σ

/-- The reduced cubes hold of the assignments of which the cubes do. -/
theorem ExactReduction.exists_all_iff
    {reduce : List (List (Option Bool)) → List (List (Option Bool))}
    (exact : ExactReduction reduce) {vars : List α} {cubes : List (List (α × Bool))}
    (hvars : ∀ m ∈ cubes, ∀ p ∈ m, p.1 ∈ vars) (σ : α → Bool) :
    (∃ m ∈ (reduce (cubes.map (termOf vars))).map (cubeOf vars),
      (m.all fun p => σ p.1 == p.2) = true) ↔ ∃ m ∈ cubes, Sat σ m :=
  (exact.exactOn fun _ => True).exists_all_iff hvars trivial

end JCore
