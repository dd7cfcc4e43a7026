import BusMaster.Proofs.Query.Shape

/-!
# Requests that move data

A request that moves data says in its own bytes where it starts, how much it covers and how many
bytes of data it brings. A device reads these fields off (`RequestFields.of?`), whatever the master
meant. What the master was asked for is a `Transfer`, in numbers without bounds. Counts are narrowed
to 16 bits before they are looked at, so a long run of data passes for a short one until its bytes
do not fit a frame (`Transfer.counted_in_full`).

A function that moves data makes of a transfer a request that fits a frame and tells it, or refuses
it as a fault of the configuration, and it does the one or the other as the transfer is allowed or
not (`Transfer.Yields`). That is one lemma for each shape of request, and from these one for each
function of both layers.
-/

namespace BusMaster

/-! ## The fields of a request -/

/-- the fields of a request that moves data, as a device finds them in its bytes -/
structure RequestFields where
  unit : UInt8
  function : UInt8
  /-- number of the first coil or register -/
  start : Nat
  /-- how many coils, registers or pairs; a request for a single one does not say -/
  count : Option UInt16
  /-- a byte count, and the bytes that follow it -/
  data : Option (UInt8 × Bytes)
  deriving DecidableEq, Repr

/-- the number of the register that the parts of a packed address name -/
def packedNumber (category index page : UInt8) : Nat :=
  8192 * page.toNat + 128 * category.toNat + index.toNat

namespace RequestFields

/-- the fields of a request, if it moves data -/
def of? : Bytes → Option RequestFields
  | unit :: function :: body =>
    match function, body with
    | 0x01, [a, b, c, d] => some ⟨unit, function, (wordOf a b).toNat, some (wordOf c d), none⟩
    | 0x02, [a, b, c, d] => some ⟨unit, function, (wordOf a b).toNat, some (wordOf c d), none⟩
    | 0x03, [a, b, c, d] => some ⟨unit, function, (wordOf a b).toNat, some (wordOf c d), none⟩
    | 0x04, [a, b, c, d] => some ⟨unit, function, (wordOf a b).toNat, some (wordOf c d), none⟩
    | 0x05, [a, b, _, _] => some ⟨unit, function, (wordOf a b).toNat, none, none⟩
    | 0x06, [a, b, _, _] => some ⟨unit, function, (wordOf a b).toNat, none, none⟩
    | 0x0F, a :: b :: c :: d :: n :: data =>
      some ⟨unit, function, (wordOf a b).toNat, some (wordOf c d), some (n, data)⟩
    | 0x10, a :: b :: c :: d :: n :: data =>
      some ⟨unit, function, (wordOf a b).toNat, some (wordOf c d), some (n, data)⟩
    | 0x42, [category, index, page, c, d] =>
      some ⟨unit, function, packedNumber category index page, some (wordOf c d), none⟩
    | 0x43, category :: index :: page :: c :: d :: n :: data =>
      some ⟨unit, function, packedNumber category index page, some (wordOf c d), some (n, data)⟩
    | 0x44, category :: index :: page :: c :: d :: n :: data =>
      some ⟨unit, function, packedNumber category index page, some (wordOf c d), some (n, data)⟩
    | _, _ => none
  | _ => none

/-- how many coils or registers the request covers -/
def covered (fields : RequestFields) : Nat := fields.count.elim 1 UInt16.toNat

variable {f : FunctionCode} (unit : UInt8) (start count : UInt16) (n : UInt8) (data : Bytes)

/-- The fields of a standard read. -/
theorem of?_read (h : f = .readCoils ∨ f = .readDiscreteInputs ∨ f = .readHoldingRegisters ∨
      f = .readInputRegisters) :
    of? (unit :: f.wire :: (wordBytes start ++ wordBytes count))
      = some ⟨unit, f.wire, start.toNat, some count, none⟩ := by
  conv_rhs => rw [← wordOf_wordBytes start, ← wordOf_wordBytes count]
  rcases h with rfl | rfl | rfl | rfl <;> rfl

/-- The fields of a standard write of one. -/
theorem of?_single (h : f = .writeSingleCoil ∨ f = .writeSingleRegister) :
    of? (unit :: f.wire :: (wordBytes start ++ wordBytes count))
      = some ⟨unit, f.wire, start.toNat, none, none⟩ := by
  conv_rhs => rw [← wordOf_wordBytes start]
  rcases h with rfl | rfl <;> rfl

/-- The fields of a standard write of many. -/
theorem of?_multiple (h : f = .writeMultipleCoils ∨ f = .writeMultipleRegisters) :
    of? (unit :: f.wire :: (wordBytes start ++ wordBytes count ++ n :: data))
      = some ⟨unit, f.wire, start.toNat, some count, some (n, data)⟩ := by
  conv_rhs => rw [← wordOf_wordBytes start, ← wordOf_wordBytes count]
  rcases h with rfl | rfl <;> rfl

variable (address : PackedAddress)

/-- The fields of an extended read. -/
theorem of?_readFromIndex :
    of? (unit :: FunctionCode.readFromIndex.wire :: (address.wire ++ wordBytes count))
      = some ⟨unit, FunctionCode.readFromIndex.wire,
          packedNumber address.category address.index address.page, some count, none⟩ := by
  conv_rhs => rw [← wordOf_wordBytes count]
  rfl

/-- The fields of an extended write. -/
theorem of?_writeIndexed (h : f = .writeToIndex ∨ f = .writeMaskedToIndex) :
    of? (unit :: f.wire :: (address.wire ++ wordBytes count ++ n :: data))
      = some ⟨unit, f.wire, packedNumber address.category address.index address.page, some count,
          some (n, data)⟩ := by
  conv_rhs => rw [← wordOf_wordBytes count]
  rcases h with rfl | rfl <;> rfl

end RequestFields

/-! ## Transfers -/

/-- what is asked of a function that moves data -/
structure Transfer where
  unit : UnitId
  function : FunctionCode
  /-- number of the first coil or register, which need not exist -/
  start : Nat
  /-- number of coils, of registers, or of pairs of data and mask, however large -/
  count : Nat
  /-- the most that the function takes -/
  limit : Nat
  /-- of so many addresses, from the first one on, it is checked that they exist -/
  checked : Nat
  /-- the data are whole registers -/
  whole : Bool := true

namespace Transfer

/-- of a standard function: the offset is added to the address, and all addresses are checked -/
def standard (unit : UnitId) (f : FunctionCode) (r : AddressRange) (count : Nat) (limit : UInt16)
    (whole : Bool := true) : Transfer :=
  ⟨unit, f, r.address.toNat + r.offset.toNat, count, limit.toNat, count, whole⟩

/-- of an extended function: the offset counts bits from the address on, and the register that this
bit lies in is checked -/
def extended (unit : UnitId) (f : FunctionCode) (r : AddressRange) (count : Nat) (limit : UInt16)
    (whole : Bool := true) : Transfer :=
  ⟨unit, f, r.address.toNat + r.offset.toNat / 16, count, limit.toNat, 1, whole⟩

/-- of an extended function at a packed address, which is sent as it is -/
def indexed (unit : UnitId) (f : FunctionCode) (address : PackedAddress) (count : Nat)
    (limit : UInt16) (whole : Bool := true) : Transfer :=
  ⟨unit, f, packedNumber address.category address.index address.page, count, limit.toNat, 0, whole⟩

variable {α β : Type} {x : Transfer}

/-- the number of data bytes of the request, if it brings data -/
def dataBytes (x : Transfer) : Option Nat :=
  match x.function with
  | .writeMultipleCoils => some (bytesForBits x.count)
  | .writeMultipleRegisters | .writeToIndex => some (2 * x.count)
  | .writeMaskedToIndex => some (4 * x.count)
  | _ => none

/-- the function takes so much data -/
def Countable (x : Transfer) : Prop := x.whole = true ∧ 1 ≤ x.count ∧ x.count ≤ x.limit

/-- the addresses exist that are checked -/
def Addressable (x : Transfer) : Prop := x.checked = 0 ∨ x.start + x.checked ≤ UInt16.size

instance (x : Transfer) : Decidable x.Countable := inferInstanceAs (Decidable (_ ∧ _))

instance (x : Transfer) : Decidable x.Addressable := inferInstanceAs (Decidable (_ ∨ _))

/-- the transfer is asked for as it may be -/
def Allowed (x : Transfer) : Prop := x.Countable ∧ x.Addressable

instance (x : Transfer) : Decidable x.Allowed := inferInstanceAs (Decidable (_ ∧ _))

/-- a request says in its fields what is asked for -/
structure Told (x : Transfer) (fields : RequestFields) : Prop where
  unit : fields.unit = x.unit.value
  function : fields.function = x.function.wire
  start : fields.start = x.start
  covered : fields.covered = x.count
  counted : fields.data.map (fun d => d.1.toNat) = x.dataBytes
  carried : fields.data.map (fun d => d.2.length) = x.dataBytes

/-- a fault to refuse the transfer for: that of its addresses, unless its count is to blame -/
structure RefusedFor (x : Transfer) (cause : ConfigFault) : Prop where
  notAllowed : ¬x.Allowed
  blamed : x.Countable → cause = .addressOverflow

/-- the transfer comes to a request that fits a frame and tells it, if it is allowed; else it is
refused -/
def Yields (x : Transfer) : Except RequestFault (Query α) → Prop
  | .ok q => x.Allowed ∧ q.request.length ≤ maxAdu ∧
      ∃ fields, RequestFields.of? q.request = some fields ∧ x.Told fields
  | .error fault => ∃ cause, fault = .configuration cause ∧ x.RefusedFor cause

namespace RefusedFor

variable {cause : ConfigFault}

theorem of_uncountable (h : ¬x.Countable) : x.RefusedFor cause :=
  ⟨fun allowed => h allowed.1, fun countable => absurd countable h⟩

theorem of_addresses (h : x.Countable → cause = .addressOverflow ∧ ¬x.Addressable) :
    x.RefusedFor cause :=
  ⟨fun allowed => (h allowed.1).2 allowed.2, fun countable => (h countable).1⟩

end RefusedFor

theorem not_addressable (some : 0 < x.checked) (beyond : UInt16.size < x.start + x.checked) :
    ¬x.Addressable := by
  rintro (none | fits)
  · exact absurd none (Nat.ne_of_gt some)
  · exact absurd fits (Nat.not_le.2 beyond)

namespace Yields

/-- A transfer that is allowed has its request. -/
theorem exists_ok {e : Except RequestFault (Query α)} (h : x.Yields e) (allowed : x.Allowed) :
    ∃ q, e = .ok q := by
  cases e with
  | ok q => exact ⟨q, rfl⟩
  | error fault =>
    obtain ⟨cause, -, refused⟩ := h
    exact absurd allowed refused.notAllowed

theorem make {data : Bytes} {accept : Bytes → Bytes → Except RequestFault α}
    (fits : data.length ≤ 252 → x.Allowed ∧
      ∃ fields, RequestFields.of? (x.unit.value :: x.function.wire :: data) = some fields ∧
        x.Told fields)
    (long : 252 < data.length → ¬x.Countable) :
    x.Yields (Query.make x.unit x.function data accept) := by
  rw [Query.make]
  split
  · rename_i short
    obtain ⟨allowed, told⟩ := fits (Nat.le_of_succ_le_succ (Nat.le_of_succ_le_succ short))
    exact ⟨allowed, short, told⟩
  · rename_i tooLong
    have uncountable := long (by
      simp only [List.length_cons, maxAdu] at tooLong
      omega)
    exact ⟨.frameTooLarge, rfl, .of_uncountable uncountable⟩

/-- A check before the request is made. -/
theorem check {e : Except ConfigFault β} {f : β → Except RequestFault (Query α)}
    (refused : ∀ cause, e = .error cause → x.RefusedFor cause)
    (next : ∀ b, e = .ok b → x.Yields (f b)) : x.Yields (ofConfig e >>= f) := by
  cases e with
  | ok b => exact next b rfl
  | error cause => exact ⟨cause, rfl, refused cause rfl⟩

/-- Data that are no whole registers are refused. -/
theorem odd (h : x.whole = false) (cause : ConfigFault) :
    x.Yields (.error (.configuration cause) : Except RequestFault (Query α)) := by
  have uncountable : ¬x.Countable := fun countable => absurd (h.symm.trans countable.1) (by decide)
  exact ⟨cause, rfl, .of_uncountable uncountable⟩

theorem map {e : Except RequestFault (Query β)} (h : x.Yields e) (g : β → α) :
    x.Yields (e >>= fun q => .ok (q.map g)) := by
  cases e with
  | ok q => exact h
  | error fault => exact h

end Yields

/-! ### Checks before the request -/

/-- A standard range is refused for its addresses, unless its count is to blame. -/
theorem standard_refused {unit : UnitId} {f : FunctionCode} {r : AddressRange} {n : Nat}
    {max : UInt16} {cause : ConfigFault}
    (h : { r with count := UInt16.ofNat n }.validate max = .error cause) :
    (standard unit f r n max).RefusedFor cause := by
  refine .of_addresses ?_
  rintro ⟨-, pos, few⟩
  change 1 ≤ n at pos
  change n ≤ max.toNat at few
  have kept : (UInt16.ofNat n).toNat = n :=
    UInt16.toNat_ofNat_of_lt' (Nat.lt_of_le_of_lt few max.toNat_lt)
  obtain ⟨hcause, beyond⟩ := AddressRange.validate_eq_error h
    (by change 0 < (UInt16.ofNat n).toNat; rwa [kept])
    (by change (UInt16.ofNat n).toNat ≤ max.toNat; rwa [kept])
  change UInt16.size < r.address.toNat + r.offset.toNat + (UInt16.ofNat n).toNat at beyond
  rw [kept] at beyond
  exact ⟨hcause, not_addressable pos beyond⟩

/-- A standard range that is taken is allowed, if its count was not cut off. -/
theorem standard_allowed (unit : UnitId) (f : FunctionCode) {r : AddressRange} {n : Nat}
    {max start : UInt16} (h : { r with count := UInt16.ofNat n }.validate max = .ok start)
    (kept : (UInt16.ofNat n).toNat = n) :
    (standard unit f r n max).Allowed ∧ start.toNat = r.address.toNat + r.offset.toNat := by
  obtain ⟨hstart, pos, few, fits⟩ := AddressRange.validate_eq_ok h
  rw [kept] at pos few fits
  rw [hstart] at fits
  exact ⟨⟨⟨rfl, pos, few⟩, .inr fits⟩, hstart⟩

/-- The start of a single coil or register is refused when it does not exist. -/
theorem single_refused {unit : UnitId} {f : FunctionCode} {r : AddressRange} {cause : ConfigFault}
    (h : r.start = .error cause) : (standard unit f r 1 1).RefusedFor cause := by
  obtain ⟨hcause, beyond⟩ := AddressRange.start_eq_error h
  exact .of_addresses fun _ => ⟨hcause, not_addressable Nat.one_pos (Nat.lt_succ_of_le beyond)⟩

theorem single_allowed {unit : UnitId} {f : FunctionCode} {r : AddressRange} {start : UInt16}
    (h : r.start = .ok start) :
    (standard unit f r 1 1).Allowed ∧ start.toNat = r.address.toNat + r.offset.toNat := by
  have hstart := AddressRange.start_eq_ok h
  refine ⟨⟨⟨rfl, Nat.le_refl 1, Nat.le_refl 1⟩, .inr ?_⟩, hstart⟩
  change r.address.toNat + r.offset.toNat + 1 ≤ UInt16.size
  rw [← hstart]
  exact start.toNat_lt

/-- Without an address to check, it is the count that is refused. -/
theorem indexed_refused {unit : UnitId} {f : FunctionCode} {address : PackedAddress} {n : Nat}
    {max : UInt16} {cause : ConfigFault}
    (h : checkCount (UInt16.ofNat n) max = .error cause) :
    (indexed unit f address n max).RefusedFor cause := by
  refine .of_uncountable ?_
  rintro ⟨-, pos, few⟩
  change 1 ≤ n at pos
  change n ≤ max.toNat at few
  have kept : (UInt16.ofNat n).toNat = n :=
    UInt16.toNat_ofNat_of_lt' (Nat.lt_of_le_of_lt few max.toNat_lt)
  have refused := checkCount_eq_error h
  rw [kept] at refused
  omega

/-- The registers that cover a run of bits are refused for the address of the first one, unless
there are too many or none. -/
theorem extended_refused {unit : UnitId} {f : FunctionCode} {r : AddressRange} {bits n : Nat}
    {max : UInt16} {whole : Bool} {cause : ConfigFault} (h : BitSpan.cover r bits = .error cause)
    (covered : (extended unit f r n max whole).Countable →
      0 < bits ∧ (r.offset.toNat % 16 + bits + 15) / 16 ≤ maxReadRegisters.toNat) :
    (extended unit f r n max whole).RefusedFor cause := by
  refine .of_addresses fun countable => ?_
  obtain ⟨pos, few⟩ := covered countable
  obtain ⟨hcause, beyond⟩ := BitSpan.cover_eq_error h pos few
  exact ⟨hcause, not_addressable Nat.one_pos (Nat.lt_succ_of_le beyond)⟩

/-- What comes of the packed address of a span comes of the range that it covers. -/
theorem Yields.covered {unit : UnitId} {f : FunctionCode} {r : AddressRange} {bits n : Nat}
    {max : UInt16} {whole : Bool} {span : BitSpan} (h : BitSpan.cover r bits = .ok span)
    {e : Except RequestFault (Query α)}
    (yields : (indexed unit f span.start n max whole).Yields e) :
    (extended unit f r n max whole).Yields e := by
  obtain ⟨-, ⟨start, hstart, hsum⟩, -⟩ := BitSpan.cover_eq_ok h
  have hfirst : packedNumber span.start.category span.start.index span.start.page
      = r.address.toNat + r.offset.toNat / 16 := by
    rw [hstart, packedNumber, PackedAddress.toNat_ofWord, hsum]
  cases e with
  | ok q =>
    obtain ⟨⟨countable, -⟩, fits, fields, hfields, told⟩ := yields
    refine ⟨⟨countable, .inr ?_⟩, fits, fields, hfields, told.unit, told.function,
      told.start.trans hfirst, told.covered, told.counted, told.carried⟩
    change r.address.toNat + r.offset.toNat / 16 + 1 ≤ UInt16.size
    rw [← hsum]
    exact start.toNat_lt
  | error fault =>
    -- no address was checked, so the count is to blame
    obtain ⟨cause, hcause, refused⟩ := yields
    exact ⟨cause, hcause, .of_uncountable fun countable => refused.notAllowed ⟨countable, .inl rfl⟩⟩

/-! ### Requests

A count that was cut off comes with more data than a frame holds.
-/

/-- Data that a frame holds, and at most eight to a byte, are counted in full. -/
theorem counted_in_full {n : Nat} {data : Bytes} (short : data.length ≤ 247)
    (many : n ≤ 8 * data.length) :
    (UInt16.ofNat n).toNat = n ∧ (UInt8.ofNat data.length).toNat = data.length :=
  ⟨UInt16.toNat_ofNat_of_lt' (Nat.lt_of_le_of_lt (Nat.le_trans many (Nat.mul_le_mul_left 8 short))
      (by decide)),
    UInt8.toNat_ofNat_of_lt' (Nat.lt_of_le_of_lt short (by decide))⟩

variable {unit : UnitId} {f : FunctionCode} {max : UInt16}

/-- A standard read. -/
theorem yields_read {r : AddressRange} {accept : Bytes → Bytes → Except RequestFault α}
    (reads : f = .readCoils ∨ f = .readDiscreteInputs ∨ f = .readHoldingRegisters ∨
      f = .readInputRegisters) :
    (standard unit f r r.count.toNat max).Yields (ofConfig (r.validate max) >>= fun start =>
      Query.make unit f (wordBytes start ++ wordBytes r.count) accept) := by
  have dataless : (standard unit f r r.count.toNat max).dataBytes = none := by
    rcases reads with rfl | rfl | rfl | rfl <;> rfl
  refine .check (fun cause hcause => ?_) fun start hstart => .make (fun _ => ?_) fun long => ?_
  · exact standard_refused (n := r.count.toNat) (by rwa [UInt16.ofNat_toNat])
  · obtain ⟨allowed, hfirst⟩ := standard_allowed unit f (n := r.count.toNat)
      (by rwa [UInt16.ofNat_toNat]) (by rw [UInt16.ofNat_toNat])
    exact ⟨allowed, _, RequestFields.of?_read _ start r.count reads, rfl, rfl, hfirst, rfl,
      dataless.symm, dataless.symm⟩
  · exact absurd long (by simp [wordBytes])

/-- A standard write of one. -/
theorem yields_single {r : AddressRange} {value : UInt16}
    {accept : Bytes → Bytes → Except RequestFault α}
    (writes : f = .writeSingleCoil ∨ f = .writeSingleRegister) :
    (standard unit f r 1 1).Yields (ofConfig r.start >>= fun start =>
      Query.make unit f (wordBytes start ++ wordBytes value) accept) := by
  have dataless : (standard unit f r 1 1).dataBytes = none := by
    rcases writes with rfl | rfl <;> rfl
  refine .check (fun cause => single_refused) fun start hstart => .make (fun _ => ?_) fun long => ?_
  · obtain ⟨allowed, hfirst⟩ := single_allowed hstart
    exact ⟨allowed, _, RequestFields.of?_single _ start value writes, rfl, rfl, hfirst, rfl,
      dataless.symm, dataless.symm⟩
  · exact absurd long (by simp [wordBytes])

/-- A standard write of many. -/
theorem yields_multiple {r : AddressRange} {n : Nat} {data : Bytes}
    {accept : Bytes → Bytes → Except RequestFault α}
    (writes : f = .writeMultipleCoils ∨ f = .writeMultipleRegisters)
    (size : (standard unit f r n max).dataBytes = some data.length) (many : n ≤ 8 * data.length)
    (bounded : n ≤ max.toNat → data.length ≤ 247) :
    (standard unit f r n max).Yields
      (ofConfig ({ r with count := UInt16.ofNat n }.validate max) >>= fun start =>
        Query.make unit f (wordBytes start ++ wordBytes (UInt16.ofNat n)
          ++ UInt8.ofNat data.length :: data) accept) := by
  refine .check (fun cause => standard_refused) fun start hstart => .make (fun fits => ?_)
    fun long countable => ?_
  · have short : data.length ≤ 247 := by
      simp only [wordBytes, List.length_append, List.length_cons, List.length_nil] at fits
      omega
    obtain ⟨kept, hbytes⟩ := counted_in_full short many
    obtain ⟨allowed, hfirst⟩ := standard_allowed unit f hstart kept
    refine ⟨allowed, _, RequestFields.of?_multiple _ start _ _ data writes, rfl, rfl, hfirst, kept,
      ?_, size.symm⟩
    rw [size]
    exact congrArg some hbytes
  · have short := bounded countable.2.2
    simp only [wordBytes, List.length_append, List.length_cons, List.length_nil] at long
    omega

/-- An extended write. -/
theorem yields_writeIndexed {address : PackedAddress} {n : Nat} {data : Bytes}
    {accept : Bytes → Bytes → Except RequestFault α}
    (writes : f = .writeToIndex ∨ f = .writeMaskedToIndex)
    (size : (indexed unit f address n max).dataBytes = some data.length)
    (many : n ≤ 8 * data.length) (bounded : n ≤ max.toNat → data.length ≤ 246) :
    (indexed unit f address n max).Yields
      (ofConfig (checkCount (UInt16.ofNat n) max) >>= fun _ =>
        Query.make unit f (address.wire ++ wordBytes (UInt16.ofNat n)
          ++ UInt8.ofNat data.length :: data) accept) := by
  refine .check (fun cause => indexed_refused) fun _ hcount => .make (fun fits => ?_)
    fun long countable => ?_
  · have short : data.length ≤ 246 := by
      simp only [wordBytes, PackedAddress.wire, List.length_append, List.length_cons,
        List.length_nil] at fits
      omega
    obtain ⟨kept, hbytes⟩ := counted_in_full (Nat.le_succ_of_le short) many
    obtain ⟨pos, few⟩ := checkCount_eq_ok hcount
    rw [kept] at pos few
    refine ⟨⟨⟨rfl, pos, few⟩, .inl rfl⟩, _, RequestFields.of?_writeIndexed _ _ _ data _ writes, rfl,
      rfl, rfl, kept, ?_, size.symm⟩
    rw [size]
    exact congrArg some hbytes
  · have short := bounded countable.2.2
    simp only [wordBytes, PackedAddress.wire, List.length_append, List.length_cons,
      List.length_nil] at long
    omega

end Transfer

/-! ## The functions that move data -/

/-- the number of registers that so many bits lie in, from the bit at the offset on -/
def AddressRange.spanned (r : AddressRange) (bits : Nat) : Nat :=
  if bits = 0 then 0 else (r.offset.toNat % 16 + bits + 15) / 16

namespace Standard

open Transfer (standard yields_read yields_single yields_multiple)

variable (unit : UnitId) (r : AddressRange)

theorem yields_readBits {f : FunctionCode} (reads : f = .readCoils ∨ f = .readDiscreteInputs) :
    (standard unit f r r.count.toNat maxReadBits).Yields (readBits f unit r) :=
  yields_read (reads.imp_right .inl)

theorem yields_readRegisters {f : FunctionCode}
    (reads : f = .readHoldingRegisters ∨ f = .readInputRegisters) :
    (standard unit f r r.count.toNat maxReadRegisters).Yields (readRegisters f unit r) :=
  yields_read (.inr (.inr reads))

theorem yields_writeCoil (value : Bool) :
    (standard unit .writeSingleCoil r 1 1).Yields (writeCoil unit r value) :=
  yields_single (.inl rfl)

theorem yields_writeRegister (value : UInt16) :
    (standard unit .writeSingleRegister r 1 1).Yields (writeRegister unit r value) :=
  yields_single (.inr rfl)

theorem yields_writeCoils {bits : BitSeq} (held : bits.size ≤ bits.capacity) :
    (standard unit .writeMultipleCoils r bits.size maxWriteBits).Yields
      (writeCoils unit r bits) := by
  have hlength : bits.toBytes.length = bytesForBits bits.size := BitSeq.length_toBytes held
  refine yields_multiple (.inl rfl) (congrArg some hlength.symm) ?_ fun few => ?_
  · rw [hlength, bytesForBits]
    omega
  · rw [hlength, bytesForBits]
    rw [show maxWriteBits.toNat = 1968 from rfl] at few
    omega

theorem yields_writeRegisters (data : Bytes) :
    (standard unit .writeMultipleRegisters r (data.length / 2) maxWriteRegisters
      (data.length % 2 = 0)).Yields (writeRegisters unit r data) := by
  rw [writeRegisters]
  split
  · rename_i odd
    exact .odd (decide_eq_false odd) _
  · rename_i even
    have even := Decidable.not_not.1 even
    rw [decide_eq_true even]
    refine yields_multiple (.inr rfl) (congrArg some ?_) ?_ fun few => ?_
    · change 2 * (data.length / 2) = data.length
      omega
    · omega
    · rw [show maxWriteRegisters.toNat = 123 from rfl] at few
      omega

end Standard

namespace Extended

open Transfer (indexed extended extended_refused yields_writeIndexed)

variable (unit : UnitId)

section

variable (address : PackedAddress)

theorem yields_readFromIndex (count : UInt16) :
    (indexed unit .readFromIndex address count.toNat maxReadRegisters).Yields
      (readFromIndex unit address count) := by
  refine .check (fun cause hcause => ?_) fun _ hcount => .make (fun _ => ?_) fun long => ?_
  · exact Transfer.indexed_refused (n := count.toNat) (by rwa [UInt16.ofNat_toNat])
  · obtain ⟨pos, few⟩ := checkCount_eq_ok hcount
    exact ⟨⟨⟨rfl, pos, few⟩, .inl rfl⟩, _, RequestFields.of?_readFromIndex .., rfl, rfl, rfl, rfl,
      rfl, rfl⟩
  · exact absurd long (by simp [wordBytes, PackedAddress.wire])

theorem yields_writeToIndex (registers : Bytes) :
    (indexed unit .writeToIndex address (registers.length / 2) maxWriteRegisters
      (registers.length % 2 = 0)).Yields (writeToIndex unit address registers) := by
  rw [writeToIndex]
  split
  · rename_i odd
    exact .odd (decide_eq_false odd) _
  · rename_i even
    have even := Decidable.not_not.1 even
    rw [decide_eq_true even, ← length_swapWords registers]
    refine yields_writeIndexed (.inl rfl) (congrArg some ?_) ?_ fun few => ?_
    · change 2 * ((swapWords registers).length / 2) = (swapWords registers).length
      rw [length_swapWords]
      omega
    · omega
    · rw [show maxWriteRegisters.toNat = 123 from rfl] at few
      rw [length_swapWords] at few ⊢
      omega

theorem yields_writeMaskedToIndex (pairs : List (UInt16 × UInt16)) :
    (indexed unit .writeMaskedToIndex address pairs.length maxMaskedRegisters).Yields
      (writeMaskedToIndex unit address pairs) := by
  have hlength : (pairs.flatMap fun p => wordBytes p.1 ++ wordBytes p.2).length
      = 4 * pairs.length := by
    simp [wordBytes, List.length_flatMap, Nat.mul_comm]
  rw [writeMaskedToIndex, ← hlength]
  refine yields_writeIndexed (.inr rfl) (congrArg some hlength.symm) ?_ fun few => ?_
  · rw [hlength]
    omega
  · rw [show maxMaskedRegisters.toNat = 60 from rfl] at few
    rw [hlength]
    omega

end

variable (r : AddressRange)

/-- As many registers as may be written or read cover a run of bits that is not empty. -/
theorem covered_of_countable {unit : UnitId} {f : FunctionCode} {r : AddressRange} {bits : Nat}
    {max : UInt16} (small : max.toNat ≤ maxReadRegisters.toNat)
    (countable : (extended unit f r (r.spanned bits) max).Countable) :
    0 < bits ∧ (r.offset.toNat % 16 + bits + 15) / 16 ≤ maxReadRegisters.toNat := by
  obtain ⟨-, pos, few⟩ := countable
  change 1 ≤ r.spanned bits at pos
  change r.spanned bits ≤ max.toNat at few
  rw [AddressRange.spanned] at pos few
  split at pos
  · cases pos
  · rename_i some
    rw [if_neg some] at few
    exact ⟨Nat.pos_of_ne_zero some, Nat.le_trans few small⟩

theorem yields_readBits :
    (extended unit .readFromIndex r (r.spanned r.count.toNat) maxReadRegisters).Yields
      (readBits unit r) := by
  refine .check (fun cause hcause => ?_) fun _ _ => .check (fun cause hcover => ?_)
    fun span hspan => ?_
  · -- the bits that may be read are those of all the registers that may be
    have uncountable : ¬(extended unit .readFromIndex r (r.spanned r.count.toNat)
        maxReadRegisters).Countable := by
      intro countable
      obtain ⟨pos, few⟩ := covered_of_countable (Nat.le_refl _) countable
      have refused := checkCount_eq_error hcause
      rw [show maxReadBits.toNat = 2000 from rfl] at refused
      rw [show maxReadRegisters.toNat = 125 from rfl] at few
      omega
    exact .of_uncountable uncountable
  · exact extended_refused hcover (covered_of_countable (Nat.le_refl _))
  · obtain ⟨pos, -, -, hregisters, -⟩ := BitSpan.cover_eq_ok hspan
    rw [AddressRange.spanned, if_neg (Nat.ne_of_gt pos), ← hregisters]
    exact (Transfer.Yields.covered hspan (yields_readFromIndex ..)).map _

theorem yields_writeBits (bits : BitSeq) :
    (extended unit .writeMaskedToIndex r (r.spanned bits.size) maxMaskedRegisters).Yields
      (writeBits unit r bits) := by
  refine .check (fun cause hcover => ?_) fun span hspan => ?_
  · exact extended_refused hcover (covered_of_countable (by decide))
  · obtain ⟨pos, -, -, hregisters, -⟩ := BitSpan.cover_eq_ok hspan
    have hpairs : (span.maskedPairs bits).length = r.spanned bits.size := by
      rw [BitSpan.maskedPairs, List.length_map, List.length_range, hregisters,
        AddressRange.spanned, if_neg (Nat.ne_of_gt pos)]
    rw [← hpairs]
    exact .covered hspan (yields_writeMaskedToIndex ..)

/-- One bit lies in one register. -/
theorem covered_one : 0 < 1 ∧ (r.offset.toNat % 16 + 1 + 15) / 16 ≤ maxReadRegisters.toNat := by
  rw [show maxReadRegisters.toNat = 125 from rfl]
  omega

theorem yields_readRegisters :
    (extended unit .readFromIndex r r.count.toNat maxReadRegisters).Yields
      (readRegisters unit r) :=
  .check (fun _ hcover => extended_refused hcover fun _ => covered_one r)
    fun _ hspan => .covered hspan (yields_readFromIndex ..)

theorem yields_writeRegisters (data : Bytes) :
    (extended unit .writeToIndex r (data.length / 2) maxWriteRegisters
      (data.length % 2 = 0)).Yields (writeRegisters unit r data) :=
  .check (fun _ hcover => extended_refused hcover fun _ => covered_one r)
    fun _ hspan => .covered hspan (yields_writeToIndex ..)

end Extended

end BusMaster
