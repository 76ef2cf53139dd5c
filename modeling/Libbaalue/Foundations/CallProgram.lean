import Mathlib.Data.List.Basic

/-!
# Programs that call their environment

A function that returns, seen from its system calls: it is done, or it makes a call and goes on
with the answer. Where a `CallMachine` is a thread that may loop for ever, a `CallProgram` ends
after finitely many calls, and its text is that of the function, in `do` notation.

* `Exec`: a complete execution, with the calls and their answers, and the value returned; the
  answers are not constrained, so that a statement about every execution is one about every
  pattern of outcomes.
* `Ensures`: a postcondition of every execution, with its rules `ensures_pure`,
  `ensures_perform_bind` and `ensures_bind`.
* `Makes`: every call of the program meets a condition.
* `eval`: executions are computed from a list of answers.

The rules are those of a logic of triples without preconditions: a program is cut at its binds, each
part is given a postcondition over its own calls, and the calls of the whole are the calls of the
parts, appended. A program needs no fuel and no measure, since it is an inductive object, and every
pattern of answers leads to its end (`exists_exec`), so that a postcondition is never true for lack
of executions.
-/

universe u v

/-- A function as the calls it makes: it returns, or it makes a call and goes on with its answer.
All its executions are finite, since the tree is well founded. -/
inductive CallProgram (κ : Type u) (ρ α : Type v)
  | ret (a : α)
  | call (c : κ) (next : ρ → CallProgram κ ρ α)

namespace CallProgram

variable {κ : Type u} {ρ α β : Type v}

/-- Sequencing: the second program starts from the value of the first. -/
protected def bind : CallProgram κ ρ α → (α → CallProgram κ ρ β) → CallProgram κ ρ β
  | ret a, f => f a
  | call c next, f => call c fun r => (next r).bind f

instance : Monad (CallProgram κ ρ) where
  pure := ret
  bind := CallProgram.bind

/-- Make one call and return its answer. -/
def perform (c : κ) : CallProgram κ ρ ρ := call c ret

/-! ### Executions -/

/-- A complete execution: the calls with their answers, and the value returned. The answers are
arbitrary; an assumption about the environment is a condition on the trace. -/
inductive Exec : CallProgram κ ρ α → List (κ × ρ) → α → Prop
  | ret {a : α} : Exec (ret a) [] a
  | call {c : κ} {r : ρ} {next : ρ → CallProgram κ ρ α} {tr : List (κ × ρ)} {a : α} :
    Exec (next r) tr a → Exec (call c next) ((c, r) :: tr) a

/-- The execution against the given answers; `none` when they run out or are left over. -/
def eval : CallProgram κ ρ α → List ρ → Option (List (κ × ρ) × α)
  | ret a, [] => some ([], a)
  | ret _, _ :: _ => none
  | call _ _, [] => none
  | call c next, r :: rs => ((next r).eval rs).map fun e => ((c, r) :: e.1, e.2)

theorem exec_of_eval {p : CallProgram κ ρ α} {answers : List ρ} {e : List (κ × ρ) × α}
    (h : p.eval answers = some e) : p.Exec e.1 e.2 := by
  induction p generalizing answers e with
  | ret a =>
    cases answers with
    | nil =>
      obtain rfl := Option.some.inj h
      exact .ret
    | cons r rs => cases h
  | call c next ih =>
    cases answers with
    | nil => cases h
    | cons r rs =>
      obtain ⟨e', he', rfl⟩ := Option.map_eq_some_iff.mp h
      exact .call (ih r he')

/-- Whatever the environment answers, the program returns. -/
theorem exists_exec (p : CallProgram κ ρ α) (env : κ → ρ) :
    ∃ tr a, p.Exec tr a ∧ ∀ e ∈ tr, e.2 = env e.1 := by
  induction p with
  | ret a => exact ⟨[], a, .ret, by simp⟩
  | call c next ih =>
    obtain ⟨tr, a, hexec, henv⟩ := ih (env c)
    exact ⟨(c, env c) :: tr, a, .call hexec, List.forall_mem_cons.mpr ⟨rfl, henv⟩⟩

/-! ### Postconditions -/

/-- `Q` holds of the calls and the value of every execution: the postcondition of a program, which
may speak of what was called on the way. -/
def Ensures (p : CallProgram κ ρ α) (Q : List (κ × ρ) → α → Prop) : Prop :=
  ∀ tr a, p.Exec tr a → Q tr a

variable {Q : List (κ × ρ) → α → Prop}

@[simp]
theorem ensures_pure {a : α} : (pure a : CallProgram κ ρ α).Ensures Q ↔ Q [] a := by
  refine ⟨fun h => h _ _ .ret, fun h tr b hexec => ?_⟩
  cases hexec
  exact h

theorem ensures_call {c : κ} {next : ρ → CallProgram κ ρ α} :
    (call c next).Ensures Q ↔ ∀ r, (next r).Ensures fun tr a => Q ((c, r) :: tr) a := by
  refine ⟨fun h r tr a hexec => h _ _ (.call hexec), fun h tr a hexec => ?_⟩
  cases hexec with
  | call hexec => exact h _ _ _ hexec

/-- **Rule of consequence.** A postcondition may be weakened, execution by execution. -/
theorem Ensures.mono {p : CallProgram κ ρ α} {Q' : List (κ × ρ) → α → Prop} (h : p.Ensures Q)
    (hQ : ∀ tr a, Q tr a → Q' tr a) : p.Ensures Q' :=
  fun tr a hexec => hQ tr a (h tr a hexec)

/-- **Rule of conjunction.** Two postconditions that were proved apart hold together. -/
theorem Ensures.and {p : CallProgram κ ρ α} {Q' : List (κ × ρ) → α → Prop} (h : p.Ensures Q)
    (h' : p.Ensures Q') : p.Ensures fun tr a => Q tr a ∧ Q' tr a :=
  fun tr a hexec => ⟨h tr a hexec, h' tr a hexec⟩

/-- **Rule of sequencing.** A program in two parts ensures what the first part ensures of the
second, with the calls of the first in front of those of the second. -/
theorem ensures_bind {p : CallProgram κ ρ α} {f : α → CallProgram κ ρ β}
    {Q : List (κ × ρ) → β → Prop} :
    (p >>= f).Ensures Q ↔
      p.Ensures fun tr a => (f a).Ensures fun tr' b => Q (tr ++ tr') b := by
  induction p generalizing Q with
  | ret a =>
    have hret : (ret a : CallProgram κ ρ α) = pure a := rfl
    rw [hret, ensures_pure]
    exact Iff.rfl
  | call c next ih =>
    have hbind : (call c next >>= f) = call c fun r => next r >>= f := rfl
    rw [hbind, ensures_call, ensures_call]
    exact forall_congr' fun r => ih r

/-- The rule of a call. -/
@[simp]
theorem ensures_perform_bind {c : κ} {f : ρ → CallProgram κ ρ β}
    {Q : List (κ × ρ) → β → Prop} :
    (perform c >>= f).Ensures Q ↔ ∀ r, (f r).Ensures fun tr b => Q ((c, r) :: tr) b :=
  ensures_call

/-! ### The calls of a program -/

/-- Every call of the program meets a condition, whatever the answers before it were. -/
def Makes (P : κ → Prop) : CallProgram κ ρ α → Prop
  | ret _ => True
  | call c next => P c ∧ ∀ r, (next r).Makes P

variable {P : κ → Prop}

@[simp]
theorem makes_pure {a : α} : (pure a : CallProgram κ ρ α).Makes P := trivial

@[simp]
theorem makes_perform_bind {c : κ} {f : ρ → CallProgram κ ρ β} :
    (perform c >>= f).Makes P ↔ P c ∧ ∀ r, (f r).Makes P := Iff.rfl

theorem Makes.bind {p : CallProgram κ ρ α} {f : α → CallProgram κ ρ β} (hp : p.Makes P)
    (hf : ∀ a, (f a).Makes P) : (p >>= f).Makes P := by
  induction p with
  | ret a => exact hf a
  | call c next ih => exact ⟨hp.1, fun r => ih r (hp.2 r)⟩

/-- What a program makes is what stands in its executions. -/
theorem Makes.of_mem {p : CallProgram κ ρ α} (h : p.Makes P) {tr : List (κ × ρ)} {a : α}
    (hexec : p.Exec tr a) : ∀ e ∈ tr, P e.1 := by
  induction hexec with
  | ret => simp
  | call _ ih => exact List.forall_mem_cons.mpr ⟨h.1, ih (h.2 _)⟩

end CallProgram
