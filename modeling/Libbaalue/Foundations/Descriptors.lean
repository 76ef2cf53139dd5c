import Mathlib.Data.Finset.Card

/-!
# Open descriptors

The set of descriptors a process has open, along a trace of events. What an event does to the
set is a parameter (`FdEffect`), and so is the system the events belong to.

* `openAfter`: the set after a trace; `FreshAlong`: a descriptor that is handed out was not open.
* `openAfter_eq_self_iff`: where nothing is closed, the set is the old one only if nothing was
  opened.
* `HandsOver`: the result of a constructor against the set before and after it: nothing is
  left behind by a failure, and success adds what is returned and no more.

The set is finite, so that what was lost can be counted (`card_openAfter`): where nothing is ever
closed, the set after a trace has one element more for each descriptor that was opened, and a bound
on the set is a bound on the number of openings. Freshness is the one thing the kernel is relied on
for, and it is a condition on the trace and not a rule of the program.
-/

/-- What an event does to the open descriptors. An event that has to do with a descriptor without
opening or closing it keeps them. -/
inductive FdEffect
  | opens (fd : ℕ)
  | closes (fd : ℕ)
  | keeps
  deriving DecidableEq

/-- The open descriptors after an effect. -/
def FdEffect.apply : FdEffect → Finset ℕ → Finset ℕ
  | opens fd, fds => insert fd fds
  | closes fd, fds => fds.erase fd
  | keeps, fds => fds

/-- A descriptor that is opened was not open. -/
def FdEffect.Fresh (fds : Finset ℕ) : FdEffect → Prop
  | opens fd => fd ∉ fds
  | _ => True

instance (fds : Finset ℕ) : DecidablePred (FdEffect.Fresh fds)
  | .opens fd => inferInstanceAs (Decidable (fd ∉ fds))
  | .closes _ | .keeps => inferInstanceAs (Decidable True)

section Traces

variable {ε : Type*} (effect : ε → FdEffect)

/-- The open descriptors after a trace. -/
def openAfter : Finset ℕ → List ε → Finset ℕ
  | fds, [] => fds
  | fds, e :: tr => openAfter ((effect e).apply fds) tr

/-- The kernel hands out descriptors that are not open. Nothing else is assumed of the numbers it
chooses. -/
def FreshAlong : Finset ℕ → List ε → Prop
  | _, [] => True
  | fds, e :: tr => (effect e).Fresh fds ∧ FreshAlong ((effect e).apply fds) tr

instance decidableFreshAlong : ∀ fds tr, Decidable (FreshAlong effect fds tr)
  | _, [] => inferInstanceAs (Decidable True)
  | fds, e :: tr =>
    have := decidableFreshAlong ((effect e).apply fds) tr
    inferInstanceAs (Decidable (_ ∧ _))

variable {effect} {fds : Finset ℕ} {tr tr' : List ε}

theorem openAfter_append :
    openAfter effect fds (tr ++ tr') = openAfter effect (openAfter effect fds tr) tr' := by
  induction tr generalizing fds with
  | nil => rfl
  | cons e tr ih => exact ih

theorem freshAlong_append :
    FreshAlong effect fds (tr ++ tr') ↔
      FreshAlong effect fds tr ∧ FreshAlong effect (openAfter effect fds tr) tr' := by
  induction tr generalizing fds with
  | nil => simp [FreshAlong, openAfter]
  | cons e tr ih => rw [List.cons_append, FreshAlong, FreshAlong, ih, and_assoc, openAfter]

/-- Events that open and close nothing leave the set alone. -/
theorem openAfter_of_keeps (h : ∀ e ∈ tr, effect e = .keeps) : openAfter effect fds tr = fds := by
  induction tr generalizing fds with
  | nil => rfl
  | cons e tr ih =>
    obtain ⟨he, htr⟩ := List.forall_mem_cons.mp h
    rw [openAfter, he]
    exact ih htr

/-- Where nothing is closed, nothing is lost. -/
theorem subset_openAfter (hclose : ∀ e ∈ tr, ∀ fd, effect e ≠ .closes fd) :
    fds ⊆ openAfter effect fds tr := by
  induction tr generalizing fds with
  | nil => exact subset_rfl
  | cons e tr ih =>
    obtain ⟨he, htr⟩ := List.forall_mem_cons.mp hclose
    refine subset_trans ?_ (ih htr)
    rcases heff : effect e with fd | fd | _
    · exact Finset.subset_insert fd fds
    · exact absurd heff (he fd)
    · exact subset_rfl

/-- **Where nothing is closed, whatever was opened is still there.** -/
theorem openAfter_eq_self_iff (hclose : ∀ e ∈ tr, ∀ fd, effect e ≠ .closes fd)
    (hfresh : FreshAlong effect fds tr) :
    openAfter effect fds tr = fds ↔ ∀ e ∈ tr, effect e = .keeps := by
  refine ⟨fun h => ?_, openAfter_of_keeps⟩
  induction tr with
  | nil => simp
  | cons e tr ih =>
    obtain ⟨he, htr⟩ := List.forall_mem_cons.mp hclose
    obtain ⟨hfe, hftr⟩ := hfresh
    rcases heff : effect e with fd | fd | _
    · -- the descriptor that was opened is still in the set, and it was not before
      rw [openAfter, heff, FdEffect.apply] at h
      rw [heff] at hfe
      have hmem : fd ∈ openAfter effect (insert fd fds) tr :=
        subset_openAfter htr (Finset.mem_insert_self fd fds)
      exact absurd (h ▸ hmem) hfe
    · exact absurd heff (he fd)
    · rw [openAfter, heff] at h
      rw [heff] at hftr
      exact List.forall_mem_cons.mpr ⟨heff, ih htr hftr h⟩

variable (effect) in
/-- The number of descriptors a trace opens, those included that it closes again. -/
def numOpened (tr : List ε) : ℕ := tr.countP fun e => match effect e with
  | .opens _ => true
  | _ => false

/-- Where nothing is closed, the descriptors add up. -/
theorem card_openAfter (hclose : ∀ e ∈ tr, ∀ fd, effect e ≠ .closes fd)
    (hfresh : FreshAlong effect fds tr) :
    (openAfter effect fds tr).card = fds.card + numOpened effect tr := by
  induction tr generalizing fds with
  | nil => rfl
  | cons e tr ih =>
    obtain ⟨he, htr⟩ := List.forall_mem_cons.mp hclose
    obtain ⟨hfe, hftr⟩ := hfresh
    rw [openAfter, ih htr hftr, numOpened, numOpened, List.countP_cons]
    rcases heff : effect e with fd | fd | _
    · rw [heff] at hfe
      rw [FdEffect.apply, Finset.card_insert_of_notMem hfe]
      simp only [if_true]
      omega
    · exact absurd heff (he fd)
    · rw [FdEffect.apply]
      rfl

end Traces

/-! ### Constructors -/

/-- What a constructor leaves open: nothing new when it fails, what it returns when it
succeeds. -/
def HandsOver (before after : Finset ℕ) : Option ℕ → Prop
  | none => after = before
  | some fd => fd ∉ before ∧ after = insert fd before

instance (before after : Finset ℕ) : DecidablePred (HandsOver before after)
  | none => inferInstanceAs (Decidable (_ = _))
  | some _ => inferInstanceAs (Decidable (_ ∧ _))

/-- With one more descriptor open, only its return is not a leak. -/
theorem handsOver_insert_iff {fds : Finset ℕ} {fd : ℕ} (h : fd ∉ fds) {ret : Option ℕ}
    (hret : ret = none ∨ ret = some fd) :
    HandsOver fds (insert fd fds) ret ↔ ret = some fd := by
  rcases hret with rfl | rfl
  · simp [HandsOver, h]
  · simp [HandsOver, h]
