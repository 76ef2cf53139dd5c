import Libbaalue.Fiber.Server

/-!
# What the server's decoding leaves alone

`baa_unpack` stores each of the four scheduling fields through a `long *`. On LP64 such a store
is 8 bytes wide: those to `kernel_tid` and to `sched_priority` run into padding, the one to
`policy` runs over `cpu`, which is stored next, and the one to `cpu` runs over `dt`, which
nothing stores again. `dt` is left with the upper half of the sign-extended `cpu`: the other
fields of the zeroed element are untouched if and only if `cpu` is not negative
(`untouched_iff`).

The proof goes through the memory: a load that a store does not meet is unchanged, and whether it is
met is a matter of offsets, decided once for the whole layout (`Field.apart_of_notMem`). It is a
matter of LP64 alone: where `long` has 32 bits, every store is as wide as its field.
-/

namespace Libbaalue

open Block ByteDigits

/-- The bytes of a member of `fiber_element_t`. -/
def Field.size : Abi → Field → ℕ
  | abi, tid | abi, func | abi, tSec | abi, tNsec => abi.longBits / 8
  | _, kernelTid | _, schedPriority | _, policy | _, cpu => 4
  | _, dt | _, dtSec | _, safeStackFac | _, safeHeapFac => 4

/-- The fields `baa_schedule_server_th` unpacks. -/
def unpackedFields : List Field := [.kernelTid, .policy, .cpu, .schedPriority]

variable {plat : Platform}

variable (plat) in
/-- All other fields of a `fiber_element_t` still are what `CLEAN_SCHED_PROPS_SERVER` made them,
which is zero. -/
def Untouched (m : List Byte) : Prop :=
  ∀ f ∉ unpackedFields,
    load m (f.offset plat.abi) (f.size plat.abi) = List.replicate (f.size plat.abi) 0

variable (plat) in
/-- The `fiber_element` of the server when it has unpacked a datagram. -/
def Server.decoded (s : Server) (d : Datagram) : List Byte :=
  ((s.loop plat).afterRecv plat (some d)).vars.fiberElement

variable (plat) in
/-- The four stores of an element, in the order of the server. -/
def storeFields (fiber : FiberElement) (m : List Byte) : List Byte :=
  let m := storeObject plat m (Field.kernelTid.offset plat.abi)
    (.slong (fiber.kernelTid.signExtend _))
  let m := storeObject plat m (Field.policy.offset plat.abi) (.slong (fiber.policy.signExtend _))
  let m := storeObject plat m (Field.cpu.offset plat.abi) (.slong (fiber.cpu.signExtend _))
  storeObject plat m (Field.schedPriority.offset plat.abi)
    (.slong (fiber.schedPriority.signExtend _))

/-- A request is decoded by four stores into a zeroed element. -/
theorem decoded_request (s : Server) {d : Datagram} (h : d.payload.getD 0 0 = ptypeSchedProps) :
    s.decoded plat d = storeFields plat (.ofRecord d.payload) (zeroFiberElement plat.abi) := by
  have hbyte : (MsgBuf.zero.receive d.payload).bytes.getD 0 0 = ptypeSchedProps := by
    rw [MsgBuf.getD_receive_zero _ (by decide), h]
  simp only [Server.decoded, Server.afterRecv, Server.loop]
  rw [dispatch_of_schedProps hbyte]
  simp only [ofRecord_receive_zero]
  rfl

/-! ### Where the stores end -/

/-- A load of bytes of a zeroed element. -/
private theorem load_zeroFiberElement {abi : Abi} {a n : ℕ} (h : a + n ≤ sizeofFiberElement abi) :
    load (zeroFiberElement abi) a n = List.replicate n 0 := by
  rw [load, zeroFiberElement, List.drop_replicate, List.take_replicate, min_eq_left (by omega)]

private theorem load_storeObject_of_disjoint (m : List Byte) {a n b : ℕ} (v : CLong plat.abi)
    (h : a + n ≤ b ∨ b + plat.abi.longBits / 8 ≤ a) :
    load (storeObject plat m b (.slong v)) a n = load m a n :=
  load_patch_disjoint (by rwa [length_bytes_slong])

/-- The range of bytes a field occupies is not met by the store of a `long` at another. -/
def Field.Apart (abi : Abi) (f g : Field) : Prop :=
  f.offset abi + f.size abi ≤ g.offset abi ∨ g.offset abi + abi.longBits / 8 ≤ f.offset abi

instance (abi : Abi) (f g : Field) : Decidable (f.Apart abi g) := instDecidableOr

/-- Only the store to `cpu` reaches another field, and only `dt`. -/
private theorem Field.apart_of_notMem {f : Field} (hf : f ∉ unpackedFields) :
    ∀ g ∈ unpackedFields, f ≠ .dt ∨ g ≠ .cpu → f.Apart .lp64 g := by
  revert hf
  cases f <;> decide

/-- A field that no store reaches keeps its bytes. -/
private theorem load_storeFields {f : Field} (h : ∀ g ∈ unpackedFields, f.Apart plat.abi g)
    (fiber : FiberElement) (m : List Byte) :
    load (storeFields plat fiber m) (f.offset plat.abi) (f.size plat.abi) =
      load m (f.offset plat.abi) (f.size plat.abi) := by
  rw [storeFields, load_storeObject_of_disjoint _ _ (h _ (by decide)),
    load_storeObject_of_disjoint _ _ (h _ (by decide)),
    load_storeObject_of_disjoint _ _ (h _ (by decide)),
    load_storeObject_of_disjoint _ _ (h _ (by decide))]

/-- The upper half of a sign-extended `int` is zero if and only if the `int` is not negative. -/
private theorem drop_bytes_signExtend_eq_zero_iff (v : CInt) :
    (Value.bytes .linux64 (.slong (v.signExtend _))).drop 4 = List.replicate 4 0 ↔ 0 ≤ v.toInt := by
  have hdrop : (Value.bytes .linux64 (.slong (v.signExtend _))).drop 4 =
      leBytes 4 ((v.signExtend 64).toNat / 256 ^ 4) := drop_leBytes 4 4 _
  have hlt : (v.signExtend 64).toNat < 256 ^ 8 := (v.signExtend 64).isLt
  have hv := v.isLt
  rw [hdrop, ← leBytes_zero, leBytes_inj (by omega) (by norm_num), BitVec.toNat_signExtend,
    BitVec.toNat_setWidth, Nat.mod_eq_of_lt (by omega), BitVec.toInt_eq_msb_cond]
  split_ifs <;> omega

/-- `dt` ends up with the upper half of what was stored through the pointer to `cpu`: the pointer is
to a `long`, and the member is an `int` with `dt` behind it. -/
theorem load_dt_storeFields (fiber : FiberElement) {m : List Byte}
    (hm : m.length = sizeofFiberElement .lp64) :
    load (storeFields .linux64 fiber m) (Field.dt.offset .lp64) (Field.dt.size .lp64) =
      (Value.bytes .linux64 (.slong (fiber.cpu.signExtend _))).drop 4 := by
  have hlen : (Value.bytes .linux64 (.slong (fiber.cpu.signExtend _))).length = 8 :=
    length_bytes_slong _
  -- `dt` starts four bytes into the store to `cpu`, and the store to `sched_priority` is far off
  calc load (storeFields .linux64 fiber m) (Field.dt.offset .lp64) (Field.dt.size .lp64)
      = load _ (Field.cpu.offset .lp64 + 4) (8 - 4) :=
        load_storeObject_of_disjoint _ _ (by decide)
    _ = _ := by
        rw [← hlen]
        refine load_patch_suffix ?_
        rw [hlen, length_storeObject, length_storeObject, hm]
        decide

/-- **What the four stores leave alone**: every other field of a zeroed element if and only if
the `cpu` stored is not negative. -/
theorem untouched_iff (fiber : FiberElement) :
    Untouched .linux64 (storeFields .linux64 fiber (zeroFiberElement .lp64)) ↔
      0 ≤ fiber.cpu.toInt := by
  have hdt := load_dt_storeFields fiber (m := zeroFiberElement .lp64) List.length_replicate
  rw [← drop_bytes_signExtend_eq_zero_iff]
  constructor
  · intro h
    rw [← hdt]
    exact h .dt (by decide)
  · intro h f hf
    by_cases hf' : f = .dt
    · subst hf'
      exact hdt.trans h
    · have hapart : ∀ g ∈ unpackedFields, f.Apart .lp64 g :=
        fun g hg => Field.apart_of_notMem hf g hg (.inl hf')
      rw [load_storeFields hapart]
      exact load_zeroFiberElement (by revert hf; cases f <;> decide)

/-- **The server's decoding touches only the four fields, exactly when the record's `cpu` is not
negative.** For every record of type `PTYPE_SCHED_PROPS`, whatever the thread did before. -/
theorem decoded_untouched_iff (s : Server) (sender payload : List Byte)
    (htype : payload.head? = some ptypeSchedProps) :
    Untouched .linux64 (s.decoded .linux64 ⟨sender, payload⟩) ↔
      0 ≤ (FiberElement.ofRecord payload).cpu.toInt := by
  have hbyte : payload.getD 0 0 = ptypeSchedProps :=
    (getD_zero_eq_schedProps_iff payload).mpr (.inr htype)
  rw [decoded_request s hbyte]
  exact untouched_iff _

/-- A record of zeroes. -/
theorem decoded_untouched_iff_zero :
    Untouched .linux64 ((Server.start .linux64).decoded .linux64 ⟨[], List.replicate 17 0⟩) ↔
      0 ≤ (FiberElement.ofRecord (List.replicate 17 0)).cpu.toInt :=
  decoded_untouched_iff (.start .linux64) [] (List.replicate 17 0) (by decide)

/-- The record of an element with `cpu` -1: `dt` is -1 as well afterwards. -/
def negativeCpuRecord : List Byte :=
  List.replicate 9 0 ++ List.replicate 4 255 ++ List.replicate 4 0

theorem not_untouched_negativeCpuRecord :
    negativeCpuRecord.length = 17 ∧ negativeCpuRecord.head? = some ptypeSchedProps ∧
    load ((Server.start .linux64).decoded .linux64 ⟨[], negativeCpuRecord⟩)
      (Field.dt.offset .lp64) (Field.dt.size .lp64) = List.replicate 4 255 ∧
    ¬ Untouched .linux64 ((Server.start .linux64).decoded .linux64 ⟨[], negativeCpuRecord⟩) := by
  have hbyte : negativeCpuRecord.getD 0 0 = ptypeSchedProps := by decide
  rw [decoded_request _ hbyte]
  refine ⟨by decide, by decide, ?_, ?_⟩
  · exact (load_dt_storeFields _ List.length_replicate).trans (by decide)
  · exact (untouched_iff _).not.mpr (by decide)

end Libbaalue
