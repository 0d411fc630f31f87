import Mathlib.Logic.Basic
import Mathlib.Tactic.Common

/-!
# Executions of Labelled Transition Relations

A step relation `step : σ → ι → σ → Prop` says which states one operation may
lead to.  Nothing is assumed about it: a total function, a function that can
fail, and a guarded step of several parties are all instances.

- `Trace step s is t`: running the operations `is` from `s` can end in `t`
- `Always step P s is`: every operation of `is` returns, and `P` holds in `s` and
  in every state reached on the way
- `Along step G s is`: every operation of `is` meets the guard `G` in the state
  it is started in
- `Guarded step G`: the steps that meet the guard `G` in the state they start in
- `Logged step out s is t log`: a run together with the outputs of its steps

The rules below turn a fact about one step into a fact about whole runs:
a rule for runs that can be performed, an invariant rule, one under a bound on the final state,
rules for guarded runs, two rules that relate `Along` to `Always`, two rules for the outputs
of a run, a simulation rule, and a progress rule.
-/

namespace Execution

variable {σ : Type*} {ι : Type*}

/-! ## §1 Runs -/

/-- `Trace step s is t`: the operations `is`, one after the other, lead from `s` to `t`. -/
inductive Trace (step : σ → ι → σ → Prop) : σ → List ι → σ → Prop where
  | nil (s : σ) : Trace step s [] s
  | cons {s t u : σ} {i : ι} {is : List ι} (h : step s i t) (rest : Trace step t is u) :
      Trace step s (i :: is) u

/-- Every operation returns, and `P` holds before, between and after the operations. -/
def Always (step : σ → ι → σ → Prop) (P : σ → Prop) : σ → List ι → Prop
  | s, [] => P s
  | s, i :: is => P s ∧ (∃ t, step s i t) ∧ ∀ t, step s i t → Always step P t is

/-- Every operation meets the guard `G` in the state it is started in. -/
def Along (step : σ → ι → σ → Prop) (G : σ → ι → Prop) : σ → List ι → Prop
  | _, [] => True
  | s, i :: is => G s i ∧ ∀ t, step s i t → Along step G t is

/-- The steps that meet the guard `G` in the state they start in. -/
def Guarded (step : σ → ι → σ → Prop) (G : σ → ι → Prop) (s : σ) (i : ι) (t : σ) : Prop :=
  G s i ∧ step s i t

/-- Perform an operation if it meets the guard. -/
def performIf (G : σ → ι → Prop) [∀ s i, Decidable (G s i)] (perform : σ → ι → Option σ) (s : σ)
    (i : ι) : Option σ :=
  if G s i then perform s i else none

/-! ## §2 Rules -/

variable {step : σ → ι → σ → Prop}

/-- The invariant rule: what one step preserves, a run preserves. -/
theorem Trace.invariant {I : σ → Prop}
    (hstep : ∀ s i t, I s → step s i t → I t)
    {s t : σ} {is : List ι} (h : Trace step s is t) (hs : I s) : I t := by
  induction h with
  | nil s => exact hs
  | cons h _ ih => exact ih (hstep _ _ _ hs h)

/-- A run that a function has performed. -/
theorem Trace.of_foldlM {perform : σ → ι → Option σ}
    (hperform : ∀ s i t, perform s i = some t → step s i t) {is : List ι} {s t : σ}
    (h : is.foldlM perform s = some t) : Trace step s is t := by
  induction is generalizing s with
  | nil =>
    cases h
    exact .nil _
  | cons i is ih =>
    obtain ⟨s', hfirst, hrest⟩ := Option.bind_eq_some_iff.mp h
    exact .cons (hperform s i s' hfirst) (ih hrest)

/-- A run is one of every relation that allows its steps. -/
theorem Trace.mono {step' : σ → ι → σ → Prop} (hstep : ∀ s i t, step s i t → step' s i t)
    {s t : σ} {is : List ι} (h : Trace step s is t) : Trace step' s is t := by
  induction h with
  | nil s => exact .nil s
  | cons h _ ih => exact .cons (hstep _ _ _ h) ih

/-- A guarded run is a run. -/
theorem Trace.of_guarded {G : σ → ι → Prop} {s t : σ} {is : List ι}
    (h : Trace (Guarded step G) s is t) : Trace step s is t :=
  h.mono fun _ _ _ hstep => hstep.2

/-- A guarded run that a function has performed. -/
theorem Trace.of_performIf {perform : σ → ι → Option σ} {G : σ → ι → Prop}
    [∀ s i, Decidable (G s i)] (hperform : ∀ s i t, perform s i = some t → step s i t)
    {is : List ι} {s t : σ} (h : is.foldlM (performIf G perform) s = some t) :
    Trace (Guarded step G) s is t := by
  refine .of_foldlM (fun s i t hstep => ?_) h
  unfold performIf at hstep
  split at hstep
  · rename_i hG
    exact ⟨hG, hperform s i t hstep⟩
  · cases hstep

/-- A run along which a guard is met, because a function that tests it performs the run. -/
theorem along_of_performIf {perform : σ → ι → Option σ} {G : σ → ι → Prop}
    [∀ s i, Decidable (G s i)] (hperform : ∀ s i t, step s i t → perform s i = some t) :
    ∀ (is : List ι) (s : σ), (is.foldlM (performIf G perform) s).isSome = true → Along step G s is
  | [], _, _ => trivial
  | i :: is, s, h => by
    rw [List.foldlM_cons] at h
    by_cases hG : G s i
    · refine ⟨hG, fun t ht => along_of_performIf hperform is t ?_⟩
      rwa [performIf, if_pos hG, hperform s i t ht] at h
    · rw [performIf, if_neg hG] at h
      cases h

/-- The invariant rule for a step that preserves `I` only below a bound `B`.
    As `B` can only be lost, never regained, it is enough that the last state meets it.
    `J` is an invariant that needs no bound. -/
theorem Trace.invariant_of_bound {J I B : σ → Prop}
    (hJ : ∀ s i t, J s → step s i t → J t)
    (hB : ∀ s i t, J s → step s i t → B t → B s)
    (hstep : ∀ s i t, J s → I s → B t → step s i t → I t)
    {s t : σ} {is : List ι} (h : Trace step s is t) (hJs : J s) (hs : I s) (ht : B t) :
    I t := by
  -- the bound holds in every state before the last one
  have hback : ∀ {s t : σ} {is : List ι}, Trace step s is t → J s → B t → B s := by
    intro s t is h hJs ht
    induction h with
    | nil s => exact ht
    | cons h _ ih => exact hB _ _ _ hJs h (ih (hJ _ _ _ hJs h) ht)
  induction h with
  | nil s => exact hs
  | cons h rest ih =>
    have hJt := hJ _ _ _ hJs h
    exact ih hJt (hstep _ _ _ hJs hs (hback rest hJt ht) h) ht

/-- What holds at the end of a run but not at its start has been brought about by one of its
    operations. -/
theorem Trace.exists_cause {J P : σ → Prop} {C : ι → Prop}
    (hJ : ∀ s i t, J s → step s i t → J t)
    (hcause : ∀ s i t, J s → step s i t → P t → P s ∨ C i)
    {s t : σ} {is : List ι} (h : Trace step s is t) (hJs : J s) (ht : P t) :
    P s ∨ ∃ i ∈ is, C i := by
  induction h with
  | nil s => exact .inl ht
  | cons h _ ih =>
    -- either `P` held after the first operation already, or a later one is the cause
    rcases ih (hJ _ _ _ hJs h) ht with hP | ⟨i, hi, hC⟩
    · rcases hcause _ _ _ hJs h hP with hP | hC
      · exact .inl hP
      · exact .inr ⟨_, List.mem_cons_self, hC⟩
    · exact .inr ⟨i, List.mem_cons_of_mem _ hi, hC⟩

/-- If under the guard a step returns and preserves `I`, then `I` holds throughout
    every run that meets the guard. -/
theorem always_of_along {I : σ → Prop} {G : σ → ι → Prop}
    (hret : ∀ s i, I s → G s i → ∃ t, step s i t)
    (hstep : ∀ s i t, I s → G s i → step s i t → I t) :
    ∀ (is : List ι) (s : σ), I s → Along step G s is → Always step I s is
  | [], _, hs, _ => hs
  | i :: is, s, hs, ⟨hG, hrest⟩ =>
    ⟨hs, hret s i hs hG, fun t ht =>
      always_of_along hret hstep is t (hstep s i t hs hG ht) (hrest t ht)⟩

/-- `Always` is monotone in its predicate. -/
theorem Always.mono {P Q : σ → Prop} (hPQ : ∀ s, P s → Q s) :
    ∀ {is : List ι} {s : σ}, Always step P s is → Always step Q s is
  | [], _, h => hPQ _ h
  | _ :: _, _, ⟨hP, hret, hrest⟩ => ⟨hPQ _ hP, hret, fun t ht => (hrest t ht).mono hPQ⟩

/-- Guards that agree on the states of an invariant `K` are met by the same runs. -/
theorem along_congr {K : σ → Prop} {G H : σ → ι → Prop}
    (hK : ∀ s i t, K s → step s i t → K t) (hGH : ∀ s i, K s → (G s i ↔ H s i)) :
    ∀ (is : List ι) (s : σ), K s → (Along step G s is ↔ Along step H s is) := by
  intro is
  induction is with
  | nil => exact fun _ _ => Iff.rfl
  | cons i is ih =>
    intro s hs
    refine and_congr (hGH s i hs) ?_
    exact forall₂_congr fun t ht => ih t (hK s i t hs ht)

/-- A guard that does not depend on the state can be read off the operations. -/
theorem along_iff_forall {I : σ → Prop} {G : ι → Prop}
    (hstep : ∀ s i, I s → G i → (∃ t, step s i t) ∧ ∀ t, step s i t → I t) :
    ∀ (is : List ι) (s : σ), I s → (Along step (fun _ i => G i) s is ↔ ∀ i ∈ is, G i) := by
  intro is
  induction is with
  | nil => intro s _; simp [Along]
  | cons i is ih =>
    intro s hs
    rw [List.forall_mem_cons]
    refine and_congr_right fun hG => ?_
    -- the rest of the run is the same whichever state the step leads to
    obtain ⟨⟨t, ht⟩, hinv⟩ := hstep s i hs hG
    constructor
    · exact fun h => (ih t (hinv t ht)).mp (h t ht)
    · exact fun h u hu => (ih u (hinv u hu)).mpr h

/-- **Exactness rule.**  Let `I` be an invariant that implies `P`.  If, from a state with
    `I`, the guard makes the step return and keep `I`, and is necessary for it to return and
    keep `P`, then the runs throughout which `P` holds are exactly the runs whose steps all meet
    the guard. -/
theorem always_iff_along {I P : σ → Prop} {G : σ → ι → Prop} (hP : ∀ s, I s → P s)
    (hgood : ∀ s i, I s → G s i → (∃ t, step s i t) ∧ ∀ t, step s i t → I t)
    (hneed : ∀ s i, I s → (∃ t, step s i t) → (∀ t, step s i t → P t) → G s i) :
    ∀ (is : List ι) (s : σ), I s → (Always step P s is ↔ Along step G s is) := by
  intro is
  induction is with
  | nil => intro s hs; simp [Always, Along, hP s hs]
  | cons i is ih =>
    intro s hs
    constructor
    · rintro ⟨_, hret, hrest⟩
      -- the states reached by the first operation satisfy `P`, so the guard held
      have hnext : ∀ t, step s i t → P t := by
        intro t ht
        have := hrest t ht
        cases is with
        | nil => exact this
        | cons _ _ => exact this.1
      have hG := hneed s i hs hret hnext
      exact ⟨hG, fun t ht => (ih t ((hgood s i hs hG).2 t ht)).mp (hrest t ht)⟩
    · rintro ⟨hG, hrest⟩
      obtain ⟨hret, hinv⟩ := hgood s i hs hG
      exact ⟨hP s hs, hret, fun t ht => (ih t (hinv t ht)).mpr (hrest t ht)⟩

/-! ## §3 Outputs -/

/-- A run with its outputs.  A step from `s` to `t` puts out `out s t`; every output is logged
    with the state that its step led to. -/
inductive Logged {ω : Type*} (step : σ → ι → σ → Prop) (out : σ → σ → List ω) :
    σ → List ι → σ → List (σ × ω) → Prop where
  | nil (s : σ) : Logged step out s [] s []
  | cons {s t u : σ} {i : ι} {is : List ι} {log : List (σ × ω)} (h : step s i t)
      (rest : Logged step out t is u log) :
      Logged step out s (i :: is) u ((out s t).map (Prod.mk t) ++ log)

section Outputs

variable {ω : Type*} {out : σ → σ → List ω} {s t : σ} {is : List ι} {log : List (σ × ω)}

theorem Logged.trace (h : Logged step out s is t log) : Trace step s is t := by
  induction h with
  | nil s => exact .nil s
  | cons h _ ih => exact .cons h ih

/-- A guard that always holds is met by every run. -/
theorem along_of_forall {G : σ → ι → Prop} (hG : ∀ s i, G s i) :
    ∀ (is : List ι) (s : σ), Along step G s is
  | [], _ => trivial
  | i :: is, s => ⟨hG s i, fun t _ => along_of_forall hG is t⟩

/-- If under the guard a step keeps `I` and all its outputs satisfy `Q`, then `Q` holds of
    every output of a run that meets the guard. -/
theorem Logged.forall_mem {I : σ → Prop} {G : σ → ι → Prop} {Q : σ → ω → Prop}
    (hstep : ∀ s i t, I s → G s i → step s i t → I t ∧ ∀ o ∈ out s t, Q t o)
    (h : Logged step out s is t log) (hs : I s) (hG : Along step G s is) :
    ∀ e ∈ log, Q e.1 e.2 := by
  induction h with
  | nil s => simp
  | cons h _ ih =>
    obtain ⟨hI, hout⟩ := hstep _ _ _ hs hG.1 h
    intro e he
    rcases List.mem_append.mp he with hnew | hlater
    · obtain ⟨o, ho, rfl⟩ := List.mem_map.mp hnew
      exact hout o ho
    · exact ih hI (hG.2 _ h) e hlater

/-- A preorder that every step goes up in orders the log. -/
theorem Logged.pairwise {R : σ → σ → Prop} (hrefl : ∀ s, R s s)
    (htrans : ∀ s t u, R s t → R t u → R s u) (hstep : ∀ s i t, step s i t → R s t)
    (h : Logged step out s is t log) :
    (∀ e ∈ log, R s e.1) ∧ log.Pairwise fun a b => R a.1 b.1 := by
  induction h with
  | nil s => simp
  | @cons s t u i is log h _ ih =>
    obtain ⟨hafter, hlater⟩ := ih
    have hup := hstep _ _ _ h
    constructor
    · intro e he
      rcases List.mem_append.mp he with hnew | hmem
      · obtain ⟨o, -, rfl⟩ := List.mem_map.mp hnew
        exact hup
      · exact htrans _ _ _ hup (hafter e hmem)
    · rw [List.pairwise_append]
      refine ⟨?_, hlater, ?_⟩
      -- the outputs of one step share their state
      · exact List.pairwise_map.mpr (List.pairwise_of_forall fun _ _ => hrefl t)
      · intro a ha b hb
        obtain ⟨o, -, rfl⟩ := List.mem_map.mp ha
        exact hafter b hb

end Outputs

/-! ## §4 Simulation -/

theorem Trace.append {s t u : σ} {is js : List ι} (h₁ : Trace step s is t)
    (h₂ : Trace step t js u) : Trace step s (is ++ js) u := by
  induction h₁ with
  | nil => exact h₂
  | cons h _ ih => exact .cons h (ih h₂)

/-- **Simulation rule.**  If, from a state with the invariant `I`, every step keeps `I` and is
    matched, between the abstractions of its two states, by a run of another system, then every
    run is matched so. -/
theorem Trace.simulates {τ κ : Type*} {spec : τ → κ → τ → Prop} {I : σ → Prop} (abs : σ → τ)
    (hstep : ∀ s i t, I s → step s i t → I t ∧ ∃ js, Trace spec (abs s) js (abs t))
    {s t : σ} {is : List ι} (h : Trace step s is t) (hs : I s) :
    I t ∧ ∃ js, Trace spec (abs s) js (abs t) := by
  induction h with
  | nil s => exact ⟨hs, [], .nil _⟩
  | cons h _ ih =>
    obtain ⟨ht, js, hfirst⟩ := hstep _ _ _ hs h
    obtain ⟨hu, ks, hrest⟩ := ih ht
    exact ⟨hu, js ++ ks, hfirst.append hrest⟩

/-! ## §5 Progress -/

/-- **Progress rule.**  If from every state with the invariant `I` in which something is left,
    some run leads to a state with `I` in which less is left, then some run leads to a state with
    `I` in which nothing is left. -/
theorem exists_trace_of_decreasing {I : σ → Prop} (left : σ → ℕ)
    (hround : ∀ s, I s → left s ≠ 0 → ∃ is t, Trace step s is t ∧ I t ∧ left t < left s)
    {s : σ} (hs : I s) : ∃ is t, Trace step s is t ∧ I t ∧ left t = 0 := by
  obtain ⟨n, hn⟩ : ∃ n, left s = n := ⟨_, rfl⟩
  induction n using Nat.strongRecOn generalizing s with
  | ind n ih =>
    by_cases hzero : left s = 0
    · exact ⟨[], s, .nil s, hs, hzero⟩
    · obtain ⟨is, t, hfirst, ht, hless⟩ := hround s hs hzero
      obtain ⟨js, u, hrest, hu, hdone⟩ := ih (left t) (hn ▸ hless) ht rfl
      exact ⟨is ++ js, u, hfirst.append hrest, hu, hdone⟩

end Execution
