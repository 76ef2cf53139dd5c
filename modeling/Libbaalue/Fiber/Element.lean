import Libbaalue.Protocol
import Libbaalue.Serialize.RoundTrip

/-!
# Fiber elements in memory and on the wire

`fiber_element_t` as the scheduling protocol sees it. The client packs the four scheduling
fields of an element with `"cLLLL"`; the server unpacks them into a zeroed `fiber_element_t`,
through a `long *` for each `int` field. On LP64 every such store is twice as wide as its
field: the store to `policy` runs over `cpu`, and only the later store to `cpu` repairs it.

`schedProps_survive_wire` shows that the four fields arrive whatever the upper halves of the
variadic arguments were, on both data models. The argument is local to a field: the store to
the field leaves its own bytes (`loadInt_storeObject_self`), and every later store starts
behind the field or ends before it (`loadInt_storeObject_of_disjoint`).

The layout is that of glibc on the two data models, with the padding where it is: it is what decides
whether a store that is too wide does harm. The message itself has no layout but the order of its
fields, and what it says is told without any memory (`FiberElement.ofRecord`), so that the server
can be followed on elements and the bytes are left behind in this module.
-/

namespace Libbaalue

open Block ByteDigits FieldCodec

/-- The fields of `fiber_element_t` that the scheduling calls read. The ones a fiber runs by are in
`Timing`, the whole of the record in `Field`. -/
structure FiberElement where
  kernelTid : CInt
  policy : CInt
  cpu : CInt
  schedPriority : CInt
  deriving DecidableEq, Repr

/-! ### The layout of `fiber_element_t` -/

/-- The members of `fiber_element_t`, `sched_param` and `t` by their scalar members, in the order of
the declaration. -/
inductive Field
  | tid
  | kernelTid
  | func
  | schedPriority
  | tSec
  | tNsec
  | policy
  | cpu
  | dt
  | dtSec
  | safeStackFac
  | safeHeapFac
  deriving DecidableEq, Repr

/-- The offset of a member in the glibc layout: every member is aligned to its size, and `long`s and
pointers are as wide as a register. -/
def Field.offset : Abi → Field → ℕ
  | .lp64, tid => 0
  | .lp64, kernelTid => 8
  | .lp64, func => 16
  | .lp64, schedPriority => 24
  | .lp64, tSec => 32
  | .lp64, tNsec => 40
  | .lp64, policy => 48
  | .lp64, cpu => 52
  | .lp64, dt => 56
  | .lp64, dtSec => 60
  | .lp64, safeStackFac => 64
  | .lp64, safeHeapFac => 68
  | .ilp32, tid => 0
  | .ilp32, kernelTid => 4
  | .ilp32, func => 8
  | .ilp32, schedPriority => 12
  | .ilp32, tSec => 16
  | .ilp32, tNsec => 20
  | .ilp32, policy => 24
  | .ilp32, cpu => 28
  | .ilp32, dt => 32
  | .ilp32, dtSec => 36
  | .ilp32, safeStackFac => 40
  | .ilp32, safeHeapFac => 44

/-- `sizeof(fiber_element_t)`. -/
def sizeofFiberElement : Abi → ℕ
  | .lp64 => 72
  | .ilp32 => 48

/-! ### Objects in memory -/

variable (plat : Platform)

/-- The bytes of a stored object. -/
def Value.bytes : Value plat.abi → List Byte
  | uchar v | schar v => [v]
  | ushort v | sshort v => plat.order.arrange (leBytes 2 v.toNat)
  | ulong v | slong v => plat.order.arrange (leBytes (plat.abi.longBits / 8) v.toNat)

/-- Store an object at an offset of a block, with its own width, whatever the member there is. -/
def storeObject (m : List Byte) (a : ℕ) (v : Value plat.abi) : List Byte := patch m a (v.bytes plat)

/-- Read the `int` at an offset of a block. -/
def loadInt (m : List Byte) (a : ℕ) : CInt :=
  BitVec.ofNat 32 (ofLeBytes (plat.order.arrange (load m a 4)))

/-- The scheduling fields of the `fiber_element_t` with the given bytes. -/
def FiberElement.ofImage (m : List Byte) : FiberElement where
  kernelTid := loadInt plat m (Field.kernelTid.offset plat.abi)
  policy := loadInt plat m (Field.policy.offset plat.abi)
  cpu := loadInt plat m (Field.cpu.offset plat.abi)
  schedPriority := loadInt plat m (Field.schedPriority.offset plat.abi)

variable {plat}

theorem length_bytes_slong (v : CLong plat.abi) :
    (Value.bytes plat (.slong v)).length = plat.abi.longBits / 8 := by
  rw [Value.bytes]
  cases plat.order <;> simp [ByteOrder.arrange]

@[simp]
theorem length_storeObject (m : List Byte) (a : ℕ) (v : Value plat.abi) :
    (storeObject plat m a v).length = m.length :=
  length_patch ..

/-- A store that misses the field does not change it. -/
private theorem loadInt_storeObject_of_disjoint (m : List Byte) {a b : ℕ} (v : CLong plat.abi)
    (h : a + 4 ≤ b ∨ b + plat.abi.longBits / 8 ≤ a) :
    loadInt plat (storeObject plat m b (.slong v)) a = loadInt plat m a := by
  rw [loadInt, storeObject, load_patch_disjoint (by rwa [length_bytes_slong]), loadInt]

/-- The first four bytes of a stored `long`, read as an `int` is. -/
private theorem arrange_take_four (x : ℕ) :
    plat.order.arrange ((plat.order.arrange (leBytes (plat.abi.longBits / 8) x)).take 4) =
      leBytes 4 x := by
  obtain ⟨abi, order, hlittle⟩ := plat
  cases abi with
  | lp64 =>
    obtain rfl := hlittle rfl
    exact take_leBytes (by simp [Abi.longBits]) x
  | ilp32 => cases order <;> simp [ByteOrder.arrange, Abi.longBits, List.take_of_length_le]

/-- The low half of a `long` stored over an `int` field is what the field then holds. -/
private theorem loadInt_storeObject_self (m : List Byte) {a : ℕ} (v : CInt)
    (h : a + plat.abi.longBits / 8 ≤ m.length) :
    loadInt plat (storeObject plat m a (.slong (v.signExtend _))) a = v := by
  have hfour : 4 ≤ plat.abi.longBits / 8 := by
    have := plat.abi.le_longBits
    omega
  have hload : load (patch m a (Value.bytes plat (.slong (v.signExtend _)))) a 4 =
      (Value.bytes plat (.slong (v.signExtend _))).take 4 :=
    load_patch_prefix (by rwa [length_bytes_slong]) (by rwa [length_bytes_slong])
  calc loadInt plat (storeObject plat m a (.slong (v.signExtend _))) a
      = BitVec.ofNat 32 (ofLeBytes (leBytes 4 (v.signExtend plat.abi.longBits).toNat)) := by
        rw [loadInt, storeObject, hload, Value.bytes, arrange_take_four]
    _ = (v.signExtend plat.abi.longBits).setWidth 32 := by
        refine BitVec.eq_of_toNat_eq ?_
        rw [ofLeBytes_leBytes, BitVec.toNat_ofNat, BitVec.toNat_setWidth]
        exact Nat.mod_mod _ _
    _ = v := setWidth_signExtend_of_le plat.abi.le_longBits v

/-! ### The record of the scheduling protocol -/

/-- The format of a `PTYPE_SCHED_PROPS` message: its type, the thread id, the policy, the cpu and
the priority. -/
def schedPropsFmt : List Char := ['c', 'L', 'L', 'L', 'L']

/-- The arguments of the client's `baa_pack` call: five `int`s, each in a slot whose upper
half is `junk`. -/
def schedPropsArgs (abi : Abi) (junk : ℕ → CInt) (fiber : FiberElement) : List (CLong abi) :=
  [intSlot abi (junk 0) (ptypeSchedProps.setWidth 32), intSlot abi (junk 1) fiber.kernelTid,
    intSlot abi (junk 2) fiber.policy, intSlot abi (junk 3) fiber.cpu,
    intSlot abi (junk 4) fiber.schedPriority]

/-- Where a pointer argument of the server's `baa_unpack` call points. -/
inductive Dest
  | protocolType
  | fiberElement (offset : ℕ)
  deriving DecidableEq, Repr

/-- The pointer arguments of the server's `baa_unpack` call. -/
def schedPropsDests (abi : Abi) : List Dest :=
  [.protocolType, .fiberElement (Field.kernelTid.offset abi),
    .fiberElement (Field.policy.offset abi), .fiberElement (Field.cpu.offset abi),
    .fiberElement (Field.schedPriority.offset abi)]

/-- The two local variables of the server that `baa_unpack` writes to. -/
structure UnpackVars where
  protocolType : Byte
  fiberElement : List Byte
  deriving DecidableEq

variable (plat) in
/-- One store of `baa_unpack` in the server. -/
def UnpackVars.store (vars : UnpackVars) : Dest × Value plat.abi → UnpackVars
  | (.protocolType, v) => { vars with protocolType := (v.bytes plat).headD vars.protocolType }
  | (.fiberElement a, v) => { vars with fiberElement := storeObject plat vars.fiberElement a v }

variable (plat) in
/-- The stores of `baa_unpack` in the server, in order. -/
def UnpackVars.storeAll (vars : UnpackVars) (stores : List (Dest × Value plat.abi)) : UnpackVars :=
  stores.foldl (UnpackVars.store plat) vars

/-- The zeroed `fiber_element_t` of `CLEAN_SCHED_PROPS_SERVER`. -/
def zeroFiberElement (abi : Abi) : List Byte := List.replicate (sizeofFiberElement abi) 0

/-- The values that come back for the arguments of the client. -/
def schedPropsValues (abi : Abi) (fiber : FiberElement) : List (Value abi) :=
  [.uchar ptypeSchedProps, .slong (fiber.kernelTid.signExtend _),
    .slong (fiber.policy.signExtend _), .slong (fiber.cpu.signExtend _),
    .slong (fiber.schedPriority.signExtend _)]

/-- The normal forms of the client's arguments do not depend on the upper halves. -/
private theorem zipWith_norm_schedPropsArgs (abi : Abi) (junk : ℕ → CInt) (fiber : FiberElement) :
    List.zipWith norm (fields abi schedPropsFmt) (schedPropsArgs abi junk fiber) =
      schedPropsValues abi fiber := by
  simp [fields, conversions, schedPropsFmt, Conv.ofChar?, schedPropsArgs, schedPropsValues,
    Conv.codec, Conv.norm]

/-- How the four fields lie: apart from `policy` and `cpu`, which are adjacent, each is
followed by enough padding for a whole `long`. -/
private theorem Field.offset_bounds (abi : Abi) :
    kernelTid.offset abi + abi.longBits / 8 ≤ schedPriority.offset abi ∧
      schedPriority.offset abi + abi.longBits / 8 ≤ policy.offset abi ∧
      policy.offset abi + 4 = cpu.offset abi ∧
      cpu.offset abi + abi.longBits / 8 ≤ sizeofFiberElement abi := by
  cases abi <;> decide

/-- The four stores through `long *`, in the order of the server, fill in the four fields. -/
theorem ofImage_storeAll (protocolType : Byte) (fiber : FiberElement) :
    FiberElement.ofImage plat (UnpackVars.storeAll plat
      ⟨protocolType, zeroFiberElement plat.abi⟩
        ((schedPropsDests plat.abi).zip (schedPropsValues plat.abi fiber))).fiberElement =
      fiber := by
  obtain ⟨htid, hprio, hpolicy, hcpu⟩ := Field.offset_bounds plat.abi
  have hlong := plat.abi.le_longBits
  have hsize : (zeroFiberElement plat.abi).length = sizeofFiberElement plat.abi :=
    List.length_replicate
  simp only [UnpackVars.storeAll, schedPropsDests, schedPropsValues, List.zip_cons_cons,
    List.foldl_cons, List.foldl_nil, List.zip_nil_right, UnpackVars.store, FiberElement.ofImage]
  -- a later store may run over a field only if it starts at that field
  rw [loadInt_storeObject_of_disjoint (a := Field.kernelTid.offset _) _ _ (by omega),
    loadInt_storeObject_of_disjoint (a := Field.kernelTid.offset _) _ _ (by omega),
    loadInt_storeObject_of_disjoint (a := Field.kernelTid.offset _) _ _ (by omega),
    loadInt_storeObject_self _ _ (by omega),
    loadInt_storeObject_of_disjoint (a := Field.policy.offset _) _ _ (by omega),
    loadInt_storeObject_of_disjoint (a := Field.policy.offset _) _ _ (by omega),
    loadInt_storeObject_self _ _ (by simp only [length_storeObject]; omega),
    loadInt_storeObject_of_disjoint (a := Field.cpu.offset _) _ _ (by omega),
    loadInt_storeObject_self _ _ (by simp only [length_storeObject]; omega),
    loadInt_storeObject_self _ _ (by simp only [length_storeObject]; omega)]

/-! ### The message -/

private theorem formatSize_schedPropsFmt : formatSize schedPropsFmt = 17 := by decide

/-- The `int` both codec calls return for a `PTYPE_SCHED_PROPS` message. -/
private theorem setWidth_seventeen (abi : Abi) :
    (BitVec.ofNat abi.longBits 17).setWidth 32 = 17#32 := by
  cases abi <;> rfl

/-- The 17 bytes the client packs for an element. What the upper halves of the registers hold does
not get into them. -/
def schedPropsMsg (abi : Abi) (junk : ℕ → CInt) (fiber : FiberElement) : List Byte :=
  encodeRecord (fields abi schedPropsFmt) (schedPropsArgs abi junk fiber)

@[simp]
theorem length_schedPropsMsg (abi : Abi) (junk : ℕ → CInt) (fiber : FiberElement) :
    (schedPropsMsg abi junk fiber).length = 17 := by
  rw [schedPropsMsg, length_encodeRecord (by rfl), recordWidth_fields, formatSize_schedPropsFmt]

/-- The client's `baa_pack` call on its zeroed message buffer. -/
theorem baaPack_schedProps (abi : Abi) (junk : ℕ → CInt) (fiber : FiberElement) :
    baaPack abi (List.replicate baaMaxLenMsg 0) schedPropsFmt (schedPropsArgs abi junk fiber) =
      some (schedPropsMsg abi junk fiber ++ List.replicate 83 0, 17) := by
  rw [baaPack_eq _ _ _ (by rfl) (by decide), formatSize_schedPropsFmt, setWidth_seventeen]
  rfl

/-- The server's `baa_unpack` call on its message buffer, whatever was received. -/
theorem baaUnpack_schedProps (abi : Abi) {buf : List Byte} (hbuf : 17 ≤ buf.length) :
    baaUnpack abi buf schedPropsFmt (schedPropsDests abi) =
      some ((schedPropsDests abi).zip (decodeRecord (fields abi schedPropsFmt) buf), 17) := by
  rw [baaUnpack_eq _ _ _ (by rfl) (by rwa [formatSize_schedPropsFmt]), formatSize_schedPropsFmt,
    setWidth_seventeen]
  rfl

/-- The values the server reads from a buffer that starts with a message of the client. -/
theorem decodeRecord_schedPropsMsg (abi : Abi) (junk : ℕ → CInt) (fiber : FiberElement)
    (rest : List Byte) :
    decodeRecord (fields abi schedPropsFmt) (schedPropsMsg abi junk fiber ++ rest) =
      schedPropsValues abi fiber := by
  rw [schedPropsMsg, decodeRecord_encodeRecord (by rfl), zipWith_norm_schedPropsArgs]

/-! ### What a message says -/

/-- The big-endian word at an offset; a byte that is not there counts as zero. -/
def wordAt (bs : List Byte) (a : ℕ) : CInt :=
  bs.getD a 0 ++ bs.getD (a + 1) 0 ++ bs.getD (a + 2) 0 ++ bs.getD (a + 3) 0

/-- The element a record describes: protocol type, tid, policy, cpu, priority. -/
def FiberElement.ofRecord (bs : List Byte) : FiberElement :=
  ⟨wordAt bs 1, wordAt bs 5, wordAt bs 9, wordAt bs 13⟩

/-- `unpack_i32` sign-extends the word at its cursor. -/
theorem unpackI32_eq_wordAt (abi : Abi) (bs : List Byte) :
    unpackI32 abi bs = (wordAt bs 0).signExtend _ := by
  have h := unpackI32_pack32 ((wordAt bs 0).setWidth abi.longBits) []
  rw [wordAt, pack32_append, vaInt, BitVec.setWidth_setWidth_of_le _ abi.le_longBits,
    BitVec.setWidth_eq] at h
  exact h

/-- The values the server reads from a buffer that starts with `PTYPE_SCHED_PROPS`. -/
theorem decodeRecord_eq_ofRecord (abi : Abi) {bs : List Byte}
    (h : bs.getD 0 0 = ptypeSchedProps) :
    decodeRecord (fields abi schedPropsFmt) bs = schedPropsValues abi (.ofRecord bs) := by
  have hword (a : ℕ) : wordAt (bs.drop a) 0 = wordAt bs a := by
    simp only [wordAt, List.getD_eq_getElem?_getD, List.getElem?_drop, Nat.add_zero]
  have hfields : fields abi schedPropsFmt = [Conv.codec abi .c, Conv.codec abi .L,
      Conv.codec abi .L, Conv.codec abi .L, Conv.codec abi .L] := rfl
  simp only [hfields, decodeRecord, Conv.codec, Conv.unpack, Conv.width, List.drop_drop,
    unpackI32_eq_wordAt, hword, schedPropsValues, FiberElement.ofRecord, h]

/-- The first byte of a message is its type. -/
theorem getD_schedPropsMsg (abi : Abi) (junk : ℕ → CInt) (fiber : FiberElement) :
    (schedPropsMsg abi junk fiber).getD 0 0 = ptypeSchedProps := by
  simp [schedPropsMsg, schedPropsFmt, schedPropsArgs, fields, conversions, Conv.ofChar?,
    encodeRecord, Conv.codec, Conv.pack]

/-- A message describes the element it was packed from. -/
theorem ofRecord_schedPropsMsg (plat : Platform) (junk : ℕ → CInt) (fiber : FiberElement) :
    FiberElement.ofRecord (schedPropsMsg plat.abi junk fiber) = fiber := by
  have hvalues : schedPropsValues plat.abi (.ofRecord (schedPropsMsg plat.abi junk fiber)) =
      schedPropsValues plat.abi fiber := by
    rw [← decodeRecord_eq_ofRecord _ (getD_schedPropsMsg ..)]
    simpa using decodeRecord_schedPropsMsg plat.abi junk fiber []
  -- both are what the server has in memory after the same stores
  have himage : FiberElement.ofImage plat _ =
      .ofRecord (schedPropsMsg plat.abi junk fiber) := ofImage_storeAll 0 _
  rw [hvalues, ofImage_storeAll] at himage
  exact himage.symm

/-- **The four scheduling fields survive the wire.** The client packs an element whose `int`s
are fetched as `long`s with arbitrary upper halves; the server receives the 17 bytes into its
zeroed buffer and unpacks them, through `long` pointers, into a zeroed `fiber_element_t`: its
four fields finally equal the client's. -/
theorem schedProps_survive_wire (plat : Platform) (junk : ℕ → CInt) (fiber : FiberElement)
    (protocolType : Byte) :
    ∃ (buf : List Byte) (stores : List (Dest × Value plat.abi)),
      baaPack plat.abi (List.replicate baaMaxLenMsg 0) schedPropsFmt
        (schedPropsArgs plat.abi junk fiber) = some (buf, 17) ∧
      baaUnpack plat.abi (overlay (List.replicate baaMaxLenMsg 0) (buf.take 17)) schedPropsFmt
        (schedPropsDests plat.abi) = some (stores, 17) ∧
      FiberElement.ofImage plat (UnpackVars.storeAll plat
        ⟨protocolType, zeroFiberElement plat.abi⟩ stores).fiberElement = fiber := by
  refine ⟨_, _, baaPack_schedProps plat.abi junk fiber,
    baaUnpack_schedProps plat.abi (by simp [baaMaxLenMsg]), ?_⟩
  rw [List.take_left' (length_schedPropsMsg ..), overlay_of_le (by simp [baaMaxLenMsg]),
    decodeRecord_schedPropsMsg, ofImage_storeAll]

end Libbaalue
