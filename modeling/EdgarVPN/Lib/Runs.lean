import Mathlib.Data.List.Perm.Basic

/-!
# Runs of a state machine

A machine is a step function `step : σ → ε → σ`, and a run is the left fold of a list of events. An
environment that may not do everything is a **guard** on the state and the event: `Admitted` says
that every event of a run was let through by the guard in the state it met.

**What is proved.** The invariant rule (`invariant_foldl`): what an admitted step keeps, an admitted
run keeps; and where a step can fail, what every step that does not fail keeps, a run that does not
fail keeps (`invariant_foldlM`). The exact form of it (`always_iff_admitted`): where a step keeps a
property exactly when it meets a condition, a run stays inside the property exactly when each of its
steps meets the condition. A guard may also read what is remembered of the run so far: the notes
stand beside the machine and do not touch it (`remember`). The insertion rule (`Weave.similar`):
when the events inserted into a run are stutters of a simulation, the two runs end related. The
projection rule (`outputs_simulate`): when each step is matched by the steps that it projects to in
another machine, the two machines end related; what a step adds to a record of the other machine, a
run adds (`outputs_observe`).

Nothing here names a particular machine.
-/

set_option autoImplicit false

namespace Runs

variable {σ ε : Type*} {step : σ → ε → σ}

/-! ## Admitted runs -/

/-- Every event of the run is let through by the guard, in the state it meets. -/
def Admitted (step : σ → ε → σ) (guard : σ → ε → Prop) : σ → List ε → Prop
  | _, [] => True
  | s, e :: es => guard s e ∧ Admitted step guard (step s e) es

instance Admitted.decidable (step : σ → ε → σ) (guard : σ → ε → Prop)
    [∀ s e, Decidable (guard s e)] : ∀ s es, Decidable (Admitted step guard s es)
  | _, [] => inferInstanceAs (Decidable True)
  | s, e :: es =>
    haveI := Admitted.decidable step guard (step s e) es
    inferInstanceAs (Decidable (guard s e ∧ Admitted step guard (step s e) es))

/-- A guard that lets every event of a run through, in any state, admits the run. -/
theorem Admitted.of_mem {guard : σ → ε → Prop} :
    ∀ {es : List ε}, (∀ s, ∀ e ∈ es, guard s e) → ∀ s : σ, Admitted step guard s es
  | [], _, _ => trivial
  | e :: _, h, s => ⟨h s e (List.mem_cons_self ..),
    Admitted.of_mem (fun s e he => h s e (List.mem_cons_of_mem _ he)) (step s e)⟩

/-- A guard that lets everything through admits every run. -/
theorem Admitted.of_forall {guard : σ → ε → Prop} (h : ∀ s e, guard s e) (es : List ε) (s : σ) :
    Admitted step guard s es :=
  Admitted.of_mem (fun s e _ => h s e) s

/-- Two guards admit a run together when each of them does. -/
theorem Admitted.and {guard guard' : σ → ε → Prop} :
    ∀ {es : List ε} {s : σ}, Admitted step guard s es → Admitted step guard' s es →
      Admitted step (fun s e => guard s e ∧ guard' s e) s es
  | [], _, _, _ => trivial
  | _ :: _, _, h, h' => ⟨⟨h.1, h'.1⟩, Admitted.and h.2 h'.2⟩

/-- An admitted run, and a last event that is let through. -/
theorem Admitted.snoc {guard : σ → ε → Prop} {e : ε} :
    ∀ {es : List ε} {s : σ}, Admitted step guard s es → guard (es.foldl step s) e →
      Admitted step guard s (es ++ [e])
  | [], _, _, last => ⟨last, trivial⟩
  | _ :: _, _, h, last => ⟨h.1, Admitted.snoc h.2 last⟩

/-- **The invariant rule.** What every admitted step keeps, every admitted run keeps. -/
theorem invariant_foldl {guard : σ → ε → Prop} {I : σ → Prop}
    (kept : ∀ s e, I s → guard s e → I (step s e)) :
    ∀ {es : List ε} {s : σ}, I s → Admitted step guard s es → I (es.foldl step s) := by
  intro es
  induction es with
  | nil => intro s hs _; exact hs
  | cons e es ih => intro s hs h; exact ih (kept s e hs h.1) h.2

/-- A run that does not fail takes its first step, and does not fail from there. -/
theorem foldlM_cons_ok {ω : Type*} {step : σ → ε → Except ω σ} {e : ε} {es : List ε} {s s' : σ}
    (h : (e :: es).foldlM step s = .ok s') :
    ∃ next, step s e = .ok next ∧ es.foldlM step next = .ok s' := by
  rw [List.foldlM_cons] at h
  cases hstep : step s e with
  | error failure =>
    rw [hstep] at h
    cases h
  | ok next =>
    rw [hstep] at h
    exact ⟨next, rfl, h⟩

/-- The invariant rule for a step that can fail, with the events taken so far. -/
theorem invariant_foldlM {ω : Type*} {step : σ → ε → Except ω σ} {I : List ε → σ → Prop}
    (kept : ∀ done s e s', I done s → step s e = .ok s' → I (done ++ [e]) s') :
    ∀ {es done : List ε} {s s' : σ}, I done s → es.foldlM step s = .ok s' → I (done ++ es) s' := by
  intro es
  induction es with
  | nil =>
    intro done s s' hs h
    cases h
    rw [List.append_nil]
    exact hs
  | cons e es ih =>
    intro done s s' hs h
    obtain ⟨next, hstep, rest⟩ := foldlM_cons_ok h
    have := ih (kept done s e next hs hstep) rest
    rwa [List.append_assoc] at this

/-- Inside an invariant, what lets a step through may be read off it. -/
theorem Admitted.of_invariant {guard guard' : σ → ε → Prop} {I : σ → Prop}
    (kept : ∀ s e, I s → guard s e → I (step s e))
    (implies : ∀ s e, I s → guard s e → guard' s e) :
    ∀ {es : List ε} {s : σ}, I s → Admitted step guard s es → Admitted step guard' s es := by
  intro es
  induction es with
  | nil => intro s _ _; trivial
  | cons e es ih =>
    intro s hs h
    exact ⟨implies s e hs h.1, ih (kept s e hs h.1) h.2⟩

/-- A property that reaches back over every step, and holds where a run ends, held after each of
the run's steps. -/
theorem admitted_of_end {Q : σ → Prop} (back : ∀ s e, Q (step s e) → Q s) :
    ∀ {es : List ε} {s : σ}, Q (es.foldl step s) →
      Admitted step (fun s e => Q (step s e)) s es := by
  have start : ∀ (es : List ε) (s : σ), Q (es.foldl step s) → Q s := by
    intro es
    induction es with
    | nil => intro s h; exact h
    | cons e es ih => intro s h; exact back s e (ih (step s e) h)
  intro es
  induction es with
  | nil => intro s _; trivial
  | cons e es ih => intro s h; exact ⟨start es (step s e) h, ih h⟩

/-! ## Runs beside which something is remembered -/

/-- A step, and what is noted beside the machine at it: `note` sees the state before the step. -/
def remember {μ : Type*} (step : σ → ε → σ) (note : σ → μ → ε → μ) (x : σ × μ) (e : ε) : σ × μ :=
  (step x.1 e, note x.1 x.2 e)

/-- What is remembered does not touch the machine. -/
theorem foldl_remember {μ : Type*} (note : σ → μ → ε → μ) (es : List ε) :
    ∀ x : σ × μ, (es.foldl (remember step note) x).1 = es.foldl step x.1 := by
  induction es with
  | nil => intro x; rfl
  | cons e es ih => intro x; exact ih (remember step note x e)

/-- A guard that does not read what is remembered admits the same runs. -/
theorem admitted_remember {μ : Type*} {guard : σ → ε → Prop} (note : σ → μ → ε → μ)
    {es : List ε} : ∀ {s : σ} (m : μ), Admitted step guard s es →
      Admitted (remember step note) (fun x e => guard x.1 e) (s, m) es := by
  induction es with
  | nil => intro s m _; trivial
  | cons e es ih => intro s m h; exact ⟨h.1, ih (note s m e) h.2⟩

/-! ## Properties of every state passed -/

/-- Every state the run passes, its first and its last included, has the property. -/
def Always (step : σ → ε → σ) (P : σ → Prop) : σ → List ε → Prop
  | s, [] => P s
  | s, e :: es => P s ∧ Always step P (step s e) es

/-- The states a run passes are the ends of its prefixes. -/
theorem always_iff_prefix {P : σ → Prop} {es : List ε} {s : σ} :
    Always step P s es ↔ ∀ pre, pre <+: es → P (pre.foldl step s) := by
  induction es generalizing s with
  | nil =>
    constructor
    · intro h pre hpre
      rw [List.prefix_nil.mp hpre]
      exact h
    · intro h
      exact h [] List.nil_prefix
  | cons e es ih =>
    constructor
    · intro h pre hpre
      cases pre with
      | nil => exact h.1
      | cons e' pre =>
        obtain ⟨rfl, hrest⟩ := List.cons_prefix_cons.mp hpre
        exact ih.mp h.2 pre hrest
    · intro h
      refine ⟨h [] List.nil_prefix, ih.mpr fun pre hpre => ?_⟩
      exact h (e :: pre) (List.cons_prefix_cons.mpr ⟨rfl, hpre⟩)

/-- **The exact invariant rule.** Let a step keep `P` exactly when it is `good`. Then a run that
starts inside `P` stays inside it exactly when every step of it is `good`. -/
theorem always_iff_admitted {good : σ → ε → Prop} {P : σ → Prop}
    (exact_ : ∀ s e, P s → (P (step s e) ↔ good s e)) :
    ∀ {es : List ε} {s : σ}, P s → (Always step P s es ↔ Admitted step good s es)
  | [], _, hp => ⟨fun _ => trivial, fun _ => hp⟩
  | e :: es, s, hp => by
    have here := exact_ s e hp
    constructor
    · intro hall
      have hnext : P (step s e) := by
        cases es with
        | nil => exact hall.2
        | cons _ _ => exact hall.2.1
      exact ⟨here.mp hnext, (always_iff_admitted exact_ hnext).mp hall.2⟩
    · intro hgood
      have hnext := here.mpr hgood.1
      exact ⟨hp, (always_iff_admitted exact_ hnext).mpr hgood.2⟩

/-! ## Inserted events -/

/-- `Weave step extra s es es'`: the run `es'` from `s` is `es` with events inserted at any points,
each of them `extra` in the state where it stands. -/
inductive Weave (step : σ → ε → σ) (extra : σ → ε → Prop) : σ → List ε → List ε → Prop
  | nil (s : σ) : Weave step extra s [] []
  | keep {s : σ} {e : ε} {es es' : List ε} :
      Weave step extra (step s e) es es' → Weave step extra s (e :: es) (e :: es')
  | insert {s : σ} {e : ε} {es es' : List ε} :
      extra s e → Weave step extra (step s e) es es' → Weave step extra s es (e :: es')

/-- **The insertion rule.** Let `R` be a simulation of the longer run's states by the shorter's,
kept by an event that both take and by an inserted event that only the longer takes. Then the two
runs end related. The invariant is the longer run's own. -/
theorem Weave.similar {extra guard : σ → ε → Prop} {I : σ → Prop} {R : σ → σ → Prop}
    (inv : ∀ t e, I t → guard t e → I (step t e))
    (both : ∀ s t e, I t → R s t → guard t e → R (step s e) (step t e))
    (stutter : ∀ s t e, I t → R s t → guard t e → extra t e → R s (step t e))
    {es es' : List ε} {t : σ} (weave : Weave step extra t es es') :
    ∀ {s : σ}, R s t → I t → Admitted step guard t es' →
      R (es.foldl step s) (es'.foldl step t) := by
  induction weave with
  | nil t => intro s hr _ _; exact hr
  | keep _ ih =>
    intro s hr hi h
    exact ih (both _ _ _ hi hr h.1) (inv _ _ hi h.1) h.2
  | insert he _ ih =>
    intro s hr hi h
    exact ih (stutter _ _ _ hi hr h.1 he) (inv _ _ hi h.1) h.2

/-! ## Outputs and projections -/

/-- What the steps of a run put out, in order. -/
def outputs {α : Type*} (step : σ → ε → σ) (out : σ → ε → List α) : σ → List ε → List α
  | _, [] => []
  | s, e :: es => out s e ++ outputs step out (step s e) es

/-- Inside an invariant, two outputs that agree on each step agree on a run. -/
theorem outputs_congr {α : Type*} {I : σ → Prop} {out out' : σ → ε → List α}
    (kept : ∀ s e, I s → I (step s e)) (same : ∀ s e, I s → out s e = out' s e) :
    ∀ (es : List ε) {s : σ}, I s → outputs step out s es = outputs step out' s es
  | [], _, _ => rfl
  | e :: es, s, h => by
    rw [outputs, outputs, same s e h, outputs_congr kept same es (kept s e h)]

/-- What the steps put out for each of many receivers, sorted by receiver. -/
theorem outputs_flatMap {α κ : Type*} (keys : List κ) (out : κ → σ → ε → List α) :
    ∀ (es : List ε) (s : σ), (outputs step (fun s e => keys.flatMap fun k => out k s e) s es).Perm
      (keys.flatMap fun k => outputs step (out k) s es)
  | [], s => by
    have none_ : (keys.flatMap fun k => outputs step (out k) s []) = [] :=
      List.flatMap_eq_nil_iff.mpr fun _ _ => rfl
    rw [none_]
    exact .nil
  | e :: es, s => by
    have rest :=
      (outputs_flatMap keys out es (step s e)).append_left (keys.flatMap fun k => out k s e)
    exact rest.trans (List.flatMap_append_perm keys _ _)

/-- Inside an invariant, outputs that can be matched, step by step, to some of what the step takes
in can be matched over a run, in order. -/
theorem outputs_matched {α β : Type*} {I : σ → Prop} {out : σ → ε → List α} {taken : ε → List β}
    {R : α → β → Prop} (kept : ∀ s e, I s → I (step s e))
    (one : ∀ s e, I s → List.SublistForall₂ R (out s e) (taken e)) :
    ∀ (es : List ε) {s : σ}, I s →
      List.SublistForall₂ R (outputs step out s es) (es.flatMap taken)
  | [], _, _ => .nil
  | e :: es, s, h => by
    obtain ⟨first, here, hfirst⟩ := List.sublistForall₂_iff.mp (one s e h)
    obtain ⟨rest, later, hrest⟩ := List.sublistForall₂_iff.mp
      (outputs_matched kept one es (kept s e h))
    rw [outputs, List.flatMap_cons]
    exact List.sublistForall₂_iff.mpr
      ⟨first ++ rest, List.rel_append here later, hfirst.append hrest⟩

section Projection

variable {τ δ α : Type*} {step' : τ → δ → τ} {project : σ → ε → List δ} {R : σ → τ → Prop}

/-- **The projection rule.** Each step projects to steps of another machine. If they keep the two
machines related, so does a run. -/
theorem outputs_simulate
    (one : ∀ s t e, R s t → R (step s e) ((project s e).foldl step' t)) :
    ∀ (es : List ε) {s : σ} {t : τ}, R s t →
      R (es.foldl step s) ((outputs step project s es).foldl step' t)
  | [], _, _, h => h
  | e :: es, s, t, h => by
    rw [outputs, List.foldl_append]
    exact outputs_simulate one es (one s t e h)

/-- A record of the other machine that grows with each step by what the step puts out grows with a
run by what the run puts out. -/
theorem outputs_observe (record : τ → List α) {out : σ → ε → List α}
    (one : ∀ s t e, R s t → R (step s e) ((project s e).foldl step' t))
    (adds : ∀ s t e, R s t → record ((project s e).foldl step' t) = record t ++ out s e) :
    ∀ (es : List ε) {s : σ} {t : τ}, R s t →
      record ((outputs step project s es).foldl step' t) = record t ++ outputs step out s es
  | [], _, _, _ => (List.append_nil _).symm
  | e :: es, s, t, h => by
    rw [outputs, outputs, List.foldl_append, outputs_observe record one adds es (one s t e h),
      adds s t e h, List.append_assoc]

end Projection

end Runs
