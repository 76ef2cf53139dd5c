import Mathlib.Logic.Function.Basic
import Mathlib.Data.Nat.Basic

/-!
# Named sockets

The sockets of a machine, as one process sees them: paths name sockets, a socket has a type for
good, a descriptor stands for a socket, and a socket is connected to at most one peer. `connect`
reaches the socket a path names if the types agree and, for the connection-oriented types, if
it listens.

That a socket and its peer have one type is part of the structure: no sequence of calls
connects sockets of two types.

A path is a key and no more: whether two spellings lead to one file is not a question here, and a
program is followed on the paths it uses itself. `unlink` takes the name away and leaves the socket,
so that a socket can be connected and nameless, which is what a restart of a server leaves behind.
-/

/-- The sockets of a machine over paths `ν` and types `τ`, with the descriptors of a process. A path
leads to a socket, which lives on when the path is removed; the two ends of a connection have one
type, which is part of the structure and never has to be shown again. -/
structure UnixSockets (ν τ : Type*) where
  /-- The socket a path names. -/
  file : ν → Option ℕ
  /-- The type of a socket, `none` for one that does not exist. -/
  type : ℕ → Option τ
  listening : ℕ → Bool
  /-- The socket a descriptor stands for. -/
  descr : ℕ → Option ℕ
  peer : ℕ → Option ℕ
  /-- The next socket. -/
  fresh : ℕ
  type_fresh : ∀ c, fresh ≤ c → type c = none
  type_of_peer : ∀ c p, peer c = some p → ∃ t, type c = some t ∧ type p = some t

namespace UnixSockets

variable {ν τ : Type*}

/-- No path, no socket, no descriptor. -/
def empty : UnixSockets ν τ where
  file _ := none
  type _ := none
  listening _ := false
  descr _ := none
  peer _ := none
  fresh := 0
  type_fresh _ _ := rfl
  type_of_peer _ _ h := nomatch h

/-- `unlink`: remove a path; the socket stays for those who have a descriptor of it, but nobody
finds it there any more. -/
def unlink [DecidableEq ν] (s : UnixSockets ν τ) (path : ν) : Option (UnixSockets ν τ) :=
  (s.file path).map fun _ => { s with file := Function.update s.file path none }

/-- `socket`: a new socket under a descriptor that is not in use. -/
def socket (s : UnixSockets ν τ) (fd : ℕ) (t : τ) : Option (UnixSockets ν τ) :=
  match s.descr fd with
  | some _ => none
  | none => some
    { s with
      type := Function.update s.type s.fresh (some t)
      descr := Function.update s.descr fd (some s.fresh)
      fresh := s.fresh + 1
      type_fresh := fun c hc => by
        rw [Function.update_of_ne (Nat.ne_of_gt hc)]
        exact s.type_fresh c (Nat.le_of_succ_le hc)
      type_of_peer := fun c p hp => by
        obtain ⟨u, hc, hpu⟩ := s.type_of_peer c p hp
        -- neither of the two is the new socket, which had no type
        have hne (x : ℕ) (hx : s.type x = some u) : x ≠ s.fresh := by
          rintro rfl
          rw [s.type_fresh _ le_rfl] at hx
          cases hx
        refine ⟨u, ?_, ?_⟩
        · rwa [Function.update_of_ne (hne c hc)]
        · rwa [Function.update_of_ne (hne p hpu)] }

/-- `bind`: name a socket by a path that does not exist. A path that exists is refused, whether
anybody still has the socket behind it or not. -/
def bind [DecidableEq ν] (s : UnixSockets ν τ) (fd : ℕ) (path : ν) :
    Option (UnixSockets ν τ) :=
  match s.descr fd, s.file path with
  | some c, none => some { s with file := Function.update s.file path (some c) }
  | some _, some _ => none
  | none, _ => none

/-- `listen`: the socket takes connections from now on. -/
def listen (s : UnixSockets ν τ) (fd : ℕ) : Option (UnixSockets ν τ) :=
  (s.descr fd).map fun c => { s with listening := Function.update s.listening c true }

/-- `close`: give up a descriptor. The path of the socket is left where it is. -/
def close (s : UnixSockets ν τ) (fd : ℕ) : UnixSockets ν τ :=
  { s with descr := Function.update s.descr fd none }

/-- `connect` to the socket a path names; `oriented` are the types that need a listener. -/
def connect [DecidableEq τ] (oriented : τ → Bool) (s : UnixSockets ν τ) (fd : ℕ) (path : ν) :
    Option (UnixSockets ν τ) :=
  match s.descr fd, s.file path with
  | some c, some p =>
    match hc : s.type c with
    | some t =>
      if h : s.type p = some t ∧ (oriented t = true → s.listening p = true) then
        some
          { s with
            peer := Function.update s.peer c (some p)
            type_of_peer := fun c' p' hp' => by
              by_cases heq : c' = c
              · subst heq
                rw [Function.update_self] at hp'
                obtain rfl := Option.some.inj hp'
                exact ⟨t, hc, h.1⟩
              · rw [Function.update_of_ne heq] at hp'
                exact s.type_of_peer c' p' hp' }
      else none
    | none => none
  | some _, none => none
  | none, _ => none

/-! ### What the calls leave alone -/

variable {s s' : UnixSockets ν τ} {fd : ℕ} {path : ν} {t : τ}

/-- A new socket: where it is, and what it changes. -/
theorem socket_eq_some (h : s.socket fd t = some s') :
    s.descr fd = none ∧ s'.descr = Function.update s.descr fd (some s.fresh) ∧
      s'.type = Function.update s.type s.fresh (some t) ∧ s'.file = s.file ∧
      s'.listening = s.listening := by
  unfold socket at h
  split at h
  · cases h
  · rename_i hnone
    cases h
    exact ⟨hnone, rfl, rfl, rfl, rfl⟩

theorem unlink_frame [DecidableEq ν] (h : s.unlink path = some s') :
    s'.file = Function.update s.file path none ∧ s'.type = s.type ∧ s'.descr = s.descr ∧
      s'.listening = s.listening := by
  obtain ⟨_, -, rfl⟩ := Option.map_eq_some_iff.mp h
  exact ⟨rfl, rfl, rfl, rfl⟩

theorem bind_eq_some [DecidableEq ν] (h : s.bind fd path = some s') :
    ∃ c, s.descr fd = some c ∧ s.file path = none ∧
      s'.file = Function.update s.file path (some c) ∧
      s'.type = s.type ∧ s'.descr = s.descr ∧ s'.listening = s.listening := by
  unfold bind at h
  split at h
  · rename_i c hc hnone
    cases h
    exact ⟨c, hc, hnone, rfl, rfl, rfl, rfl⟩
  · cases h
  · cases h

theorem connect_frame [DecidableEq τ] {oriented : τ → Bool}
    (h : s.connect oriented fd path = some s') :
    s'.file = s.file ∧ s'.type = s.type ∧ s'.descr = s.descr ∧ s'.listening = s.listening := by
  unfold connect at h
  split at h
  · split at h
    · split_ifs at h
      cases h
      exact ⟨rfl, rfl, rfl, rfl⟩
    · cases h
  · cases h
  · cases h

theorem listen_eq_some (h : s.listen fd = some s') :
    ∃ c, s.descr fd = some c ∧ s'.listening = Function.update s.listening c true ∧
      s'.file = s.file ∧ s'.type = s.type ∧ s'.descr = s.descr := by
  obtain ⟨c, hc, rfl⟩ := Option.map_eq_some_iff.mp h
  exact ⟨c, hc, rfl, rfl, rfl, rfl⟩

/-- **A type is for good.** A new socket changes nothing about the types of the others. -/
theorem type_socket {c : ℕ} {u : τ} (h : s.socket fd t = some s') (hc : s.type c = some u) :
    s'.type c = some u := by
  obtain ⟨-, -, htype, -, -⟩ := socket_eq_some h
  have hne : c ≠ s.fresh := by
    rintro rfl
    rw [s.type_fresh _ le_rfl] at hc
    cases hc
  rwa [htype, Function.update_of_ne hne]

end UnixSockets
