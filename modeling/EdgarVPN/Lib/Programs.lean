import Mathlib.Data.List.Basic

/-!
# Programs that call a system

A program makes calls, and what it does next may depend on the answers (`Prog`). It has no meaning
of its own for a call: an environment answers each call from everything that was called before
(`exec`). With a state that the program keeps to itself, it is a command (`Cmd`).

A monitor watches the calls: a step on states of its own that a call may be refused by. `Prog.wp` is
the weakest precondition over every environment: the monitor refuses no call, and the postcondition
holds of the value and of the monitor's state at the end. The rules of the calculus are
`Prog.wp_bind` and `Prog.wp_mono`, with `Cmd.wp_seq` and `Cmd.wp_mono` for commands; `Prog.wp_exec`
says that what the calculus proves holds of a run.

Nothing here names a particular system.
-/

set_option autoImplicit false

namespace Programs

universe u v w

/-- A program over calls `C` with answers `A`. -/
inductive Prog (C : Type u) (A : C → Type v) (α : Type w) : Type (max u v w) where
  | ret (a : α)
  | call (c : C) (next : A c → Prog C A α)

/-- A call with its answer. -/
abbrev Entry (C : Type u) (A : C → Type v) := (c : C) × A c

/-- An environment answers a call from everything that was called before. -/
abbrev Env (C : Type u) (A : C → Type v) := List (Entry C A) → (c : C) → A c

variable {C : Type u} {A : C → Type v} {α β : Type w}

namespace Prog

/-- One program, then another that is chosen by its value. -/
protected def bind : Prog C A α → (α → Prog C A β) → Prog C A β
  | .ret a, f => f a
  | .call c next, f => .call c fun answer => (next answer).bind f

instance : Monad (Prog C A) where
  pure := .ret
  bind := Prog.bind

/-- All calls made, after those of the past, and the value. -/
def exec (env : Env C A) : List (Entry C A) → Prog C A α → List (Entry C A) × α
  | past, .ret a => (past, a)
  | past, .call c next => exec env (past ++ [⟨c, env past c⟩]) (next (env past c))

variable {M : Type*}

/-- Whatever the answers, the monitor refuses no call, and the postcondition holds at the end. -/
def wp (step : M → Entry C A → Option M) : Prog C A α → (α → M → Prop) → M → Prop
  | .ret a, Q, m => Q a m
  | .call c next, Q, m => ∀ answer, ∃ m', step m ⟨c, answer⟩ = some m' ∧ wp step (next answer) Q m'

variable {step : M → Entry C A → Option M}

theorem wp_bind {f : α → Prog C A β} {Q : β → M → Prop} :
    ∀ {p : Prog C A α} {m : M},
      wp step (p >>= f) Q m ↔ wp step p (fun a => wp step (f a) Q) m
  | .ret _, _ => Iff.rfl
  | .call _ _, _ => forall_congr' fun _ => exists_congr fun _ => and_congr_right fun _ => wp_bind

theorem wp_mono {Q Q' : α → M → Prop} (weaker : ∀ a m, Q a m → Q' a m) :
    ∀ {p : Prog C A α} {m : M}, wp step p Q m → wp step p Q' m
  | .ret a, m, h => weaker a m h
  | .call _ _, _, h => fun answer => by
    obtain ⟨m', hstep, rest⟩ := h answer
    exact ⟨m', hstep, wp_mono weaker rest⟩

/-- Every call of a program satisfies `P`, whatever the answers. -/
def Calls (P : C → Prop) : Prog C A α → Prop
  | .ret _ => True
  | .call c next => P c ∧ ∀ answer, (next answer).Calls P

theorem Calls.bind {P : C → Prop} {f : α → Prog C A β} (next : ∀ a, (f a).Calls P) :
    ∀ {p : Prog C A α}, p.Calls P → (p >>= f).Calls P
  | .ret a, _ => next a
  | .call _ _, h => ⟨h.1, fun answer => Calls.bind next (h.2 answer)⟩

/-- Calls that leave the monitor where it is. -/
theorem Calls.wp {P : C → Prop} {m : M} (quiet : ∀ c, P c → ∀ a, step m ⟨c, a⟩ = some m) :
    ∀ {p : Prog C A α}, p.Calls P → p.wp step (fun _ m' => m' = m) m
  | .ret _, _ => rfl
  | .call c _, h => fun answer => ⟨m, quiet c h.1 answer, Calls.wp quiet (h.2 answer)⟩

/-- **What the calculus proves holds of a run**, in every environment. -/
theorem wp_exec (env : Env C A) {Q : α → M → Prop} :
    ∀ {p : Prog C A α} {m : M} (past : List (Entry C A)), wp step p Q m →
      ∃ made m', (exec env past p).1 = past ++ made ∧ made.foldlM step m = some m' ∧
        Q (exec env past p).2 m'
  | .ret a, m, past, h => ⟨[], m, (List.append_nil _).symm, rfl, h⟩
  | .call c next, m, past, h => by
    obtain ⟨m', hstep, rest⟩ := h (env past c)
    obtain ⟨made, m'', hmade, hrun, post⟩ := wp_exec env (past ++ [⟨c, env past c⟩]) rest
    refine ⟨⟨c, env past c⟩ :: made, m'', ?_, ?_, post⟩
    · rw [exec, hmade, List.append_assoc]
      rfl
    · rw [List.foldlM_cons, hstep]
      exact hrun

end Prog

/-! ## Monitors -/

section Monitors

variable {M N : Type*}

/-- Two monitors side by side: a call that one refuses is refused. -/
def both (first : M → Entry C A → Option M) (second : N → Entry C A → Option N) (m : M × N)
    (entry : Entry C A) : Option (M × N) :=
  (first m.1 entry).bind fun m' => (second m.2 entry).map fun n' => (m', n')

theorem both_eq_some {first : M → Entry C A → Option M} {second : N → Entry C A → Option N}
    {m m' : M × N} {entry : Entry C A} :
    both first second m entry = some m' ↔
      first m.1 entry = some m'.1 ∧ second m.2 entry = some m'.2 := by
  unfold both
  constructor
  · intro h
    obtain ⟨a, ha, h⟩ := Option.bind_eq_some_iff.mp h
    obtain ⟨b, hb, rfl⟩ := Option.map_eq_some_iff.mp h
    exact ⟨ha, hb⟩
  · rintro ⟨ha, hb⟩
    rw [ha, Option.bind_some, hb]
    rfl

theorem foldlM_both {first : M → Entry C A → Option M} {second : N → Entry C A → Option N} :
    ∀ {trace : List (Entry C A)} {m m' : M × N},
      trace.foldlM (both first second) m = some m' ↔
        trace.foldlM first m.1 = some m'.1 ∧ trace.foldlM second m.2 = some m'.2
  | [], m, m' => by
    simp only [List.foldlM_nil, Option.pure_def, Option.some.injEq]
    exact Prod.ext_iff
  | entry :: trace, m, m' => by
    rw [List.foldlM_cons, List.foldlM_cons, List.foldlM_cons]
    constructor
    · intro h
      obtain ⟨next, here, later⟩ := Option.bind_eq_some_iff.mp h
      obtain ⟨hm, hn⟩ := both_eq_some.mp here
      obtain ⟨h₁, h₂⟩ := foldlM_both.mp later
      exact ⟨Option.bind_eq_some_iff.mpr ⟨_, hm, h₁⟩, Option.bind_eq_some_iff.mpr ⟨_, hn, h₂⟩⟩
    · rintro ⟨h₁, h₂⟩
      obtain ⟨a, ha, h₁⟩ := Option.bind_eq_some_iff.mp h₁
      obtain ⟨b, hb, h₂⟩ := Option.bind_eq_some_iff.mp h₂
      exact Option.bind_eq_some_iff.mpr
        ⟨(a, b), both_eq_some.mpr ⟨ha, hb⟩, foldlM_both.mpr ⟨h₁, h₂⟩⟩

/-- The monitor that refuses nothing and writes down what it sees. -/
def record {γ : Type*} (see : Entry C A → Option γ) (seen : List γ) (entry : Entry C A) :
    Option (List γ) :=
  some (seen ++ (see entry).toList)

theorem foldlM_record {γ : Type*} {see : Entry C A → Option γ} :
    ∀ {trace : List (Entry C A)} {seen : List γ},
      trace.foldlM (record see) seen = some (seen ++ trace.filterMap see)
  | [], seen => by rw [List.filterMap_nil, List.append_nil]; rfl
  | entry :: trace, seen => by
    rw [List.foldlM_cons, record]
    show trace.foldlM (record see) _ = _
    rw [foldlM_record, List.append_assoc, List.filterMap_cons]
    cases see entry with
    | none => rfl
    | some x => rfl

/-- What every call that is not refused keeps, with the calls so far. -/
theorem monitor_invariant {step : M → Entry C A → Option M} {I : List (Entry C A) → M → Prop}
    (kept : ∀ done m entry m', I done m → step m entry = some m' → I (done ++ [entry]) m') :
    ∀ {trace done : List (Entry C A)} {m m' : M}, I done m → trace.foldlM step m = some m' →
      I (done ++ trace) m'
  | [], done, m, m', h, run => by
    cases run
    rwa [List.append_nil]
  | entry :: trace, done, m, m', h, run => by
    rw [List.foldlM_cons] at run
    obtain ⟨next, hstep, rest⟩ := Option.bind_eq_some_iff.mp run
    have := monitor_invariant kept (kept done m entry next h hstep) rest
    rwa [List.append_assoc] at this

/-- A call that was made was not refused. -/
theorem monitor_split {step : M → Entry C A → Option M} {before after : List (Entry C A)}
    {entry : Entry C A} {m m' : M} (run : (before ++ entry :: after).foldlM step m = some m') :
    ∃ here next, before.foldlM step m = some here ∧ step here entry = some next := by
  rw [List.foldlM_append] at run
  obtain ⟨here, first, run⟩ := Option.bind_eq_some_iff.mp run
  rw [List.foldlM_cons] at run
  obtain ⟨next, hstep, _⟩ := Option.bind_eq_some_iff.mp run
  exact ⟨here, next, first, hstep⟩

end Monitors

/-! ## Commands -/

/-- A program with a state of its own. -/
abbrev Cmd (C : Type u) (A : C → Type v) (σ : Type w) := StateT σ (Prog C A)

namespace Cmd

variable {σ : Type w} {M : Type*} {step : M → Entry C A → Option M}

/-- `Prog.wp` of a command from a state of its own. -/
def wp (step : M → Entry C A → Option M) (p : Cmd C A σ α) (Q : α → σ → M → Prop) (s : σ) (m : M) :
    Prop :=
  Prog.wp step (p s) (fun r => Q r.1 r.2) m

theorem wp_pure {a : α} {Q : α → σ → M → Prop} {s : σ} {m : M} :
    wp step (pure a) Q s m ↔ Q a s m := Iff.rfl

theorem wp_bind {p : Cmd C A σ α} {f : α → Cmd C A σ β} {Q : β → σ → M → Prop} {s : σ} {m : M} :
    wp step (p >>= f) Q s m ↔ wp step p (fun a => wp step (f a) Q) s m := Prog.wp_bind

theorem wp_mono {p : Cmd C A σ α} {Q Q' : α → σ → M → Prop} {s : σ} {m : M}
    (h : wp step p Q s m) (weaker : ∀ a s m, Q a s m → Q' a s m) : wp step p Q' s m := by
  unfold wp at h ⊢
  exact Prog.wp_mono (fun r m post => weaker r.1 r.2 m post) h

/-- One command, then another: the sequence rule. -/
theorem wp_seq {p : Cmd C A σ α} {f : α → Cmd C A σ β} {R : α → σ → M → Prop}
    {Q : β → σ → M → Prop} {s : σ} {m : M} (first : wp step p R s m)
    (next : ∀ a s m, R a s m → wp step (f a) Q s m) : wp step (p >>= f) Q s m :=
  wp_bind.mpr (wp_mono first next)

/-- Every call of a command satisfies `P`, whatever the answers. -/
structure Calls (P : C → Prop) (p : Cmd C A σ α) : Prop where
  calls : ∀ s, (p s).Calls P

theorem Calls.pure {P : C → Prop} (a : α) : Calls P (pure a : Cmd C A σ α) := ⟨fun _ => trivial⟩

theorem Calls.bind {P : C → Prop} {p : Cmd C A σ α} {f : α → Cmd C A σ β} (first : Calls P p)
    (next : ∀ a, Calls P (f a)) : Calls P (p >>= f) := by
  constructor
  intro s
  show Prog.Calls P (p s >>= fun r => f r.1 r.2)
  exact Prog.Calls.bind (fun r => (next r.1).calls r.2) (first.calls s)

theorem Calls.wp {P : C → Prop} {p : Cmd C A σ α} {m : M} (h : Calls P p)
    (quiet : ∀ c, P c → ∀ a, step m ⟨c, a⟩ = some m) (s : σ) :
    wp step p (fun _ _ m' => m' = m) s m :=
  Prog.Calls.wp quiet (h.calls s)

end Cmd

end Programs
