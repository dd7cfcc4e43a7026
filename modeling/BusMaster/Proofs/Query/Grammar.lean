import BusMaster.Proofs.Query.Coils

/-!
# Grammars of responses

What a function accepts is said by a `Grammar`: which bytes answer a request, and with which result.
There are few of them: data behind their byte count, bits cut out of such data, an echo of the first
bytes of the request, and results written out. Each reading of the query layer accepts the bytes of
its grammar and no others, with nothing before, between or behind them, so for each there is one
lemma that says exactly when it ends well.

Only bits have more than one answer for a result: what stands behind the last of them in its byte is
not looked at (`BitSeq.ofBytes_eq_ok_iff`).
-/

namespace BusMaster

/-- which bytes answer a request, and with which result -/
abbrev Grammar (α : Type) := Bytes → Bytes → α → Prop

namespace Grammar

/-- unit id and function code of the request, a byte count, and so many bytes -/
def Counted (n : Nat) : Grammar Bytes := fun request adu data =>
  adu = request.take 2 ++ UInt8.ofNat n :: data ∧ data.length = n

/-- bits in counted bytes, the first of them at a digit of the first byte -/
def Bits (bytes first size : Nat) : Grammar BitSeq := fun request adu bits =>
  ∃ data, Counted bytes request adu data ∧ bits = BitSeq.ofFn .lsb0 size fun i =>
    (data.getD ((first + i) / 8) 0).toNat.testBit ((first + i) % 8)

/-- the first bytes of the request -/
def Echo (n : Nat) : Grammar Unit := fun request adu _ => adu = request.take n

/-- the request -/
def Same : Grammar Unit := fun request adu _ => adu = request

/-- unit id and function code of the request, and a result that can be written out -/
def Written {α : Type} (bytes : α → Bytes) (writable : α → Prop) : Grammar α := fun request adu a =>
  adu = request.take 2 ++ bytes a ∧ writable a

end Grammar

/-- the counter as it is sent -/
def CommEventCounter.bytes (counter : CommEventCounter) : Bytes :=
  wordBytes counter.status ++ wordBytes counter.eventCount

/-- the log as it is sent, behind the number of its bytes -/
def CommEventLog.bytes (log : CommEventLog) : Bytes :=
  UInt8.ofNat (6 + log.events.length) ::
    (wordBytes log.status ++ wordBytes log.eventCount ++ wordBytes log.messageCount ++ log.events)

/-- the number of bytes of the log can be sent -/
def CommEventLog.Writable (log : CommEventLog) : Prop := 6 + log.events.length < 256

instance (log : CommEventLog) : Decidable log.Writable := inferInstanceAs (Decidable (_ < _))

/-- an object as it is sent -/
def DeviceObject.bytes (object : DeviceObject) : Bytes :=
  object.id :: UInt8.ofNat object.value.length :: object.value

/-- the number of bytes of the object can be sent -/
def DeviceObject.Writable (object : DeviceObject) : Prop := object.value.length < 256

instance (object : DeviceObject) : Decidable object.Writable :=
  inferInstanceAs (Decidable (_ < _))

/-- objects behind their number, with any read code, conformity, follow-up and next object before
it -/
def Grammar.Identification : Grammar (List DeviceObject) := fun request adu objects =>
  ∃ code conformity more next : UInt8,
    adu = request.take 2 ++ 0x0E :: code :: conformity :: more :: next ::
      UInt8.ofNat objects.length :: objects.flatMap DeviceObject.bytes ∧
    objects.length < 256 ∧ ∀ object ∈ objects, object.Writable

namespace Grammar

variable {unit function : UInt8} {data body : Bytes}

theorem counted_iff {n : Nat} {bytes : Bytes} :
    Counted n (unit :: function :: data) (unit :: function :: body) bytes ↔
      body = UInt8.ofNat n :: bytes ∧ bytes.length = n := by
  simp [Counted]

theorem written_iff {α : Type} {bytes : α → Bytes} {writable : α → Prop} {a : α} :
    Written bytes writable (unit :: function :: data) (unit :: function :: body) a ↔
      body = bytes a ∧ writable a := by
  simp [Written]

/-- The counted data stand behind unit id, function code and byte count. -/
theorem Counted.drop {n : Nat} {request adu bytes : Bytes} (h : Counted n request adu bytes)
    (addressed : 2 ≤ request.length) : adu.drop 3 = bytes := by
  have head : (request.take 2).length = 2 := List.length_take_of_le addressed
  have counted : adu.drop 2 = UInt8.ofNat n :: bytes := by
    rw [h.1]
    exact List.drop_left' head
  calc adu.drop 3 = (adu.drop 2).drop 1 := by rw [List.drop_drop]
    _ = bytes := by rw [counted, List.drop_one, List.tail_cons]

end Grammar

/-! ## Readings -/

theorem byte_eq_ofNat_iff {b : UInt8} {n : Nat} (small : n < 256) :
    b = UInt8.ofNat n ↔ b.toNat = n := by
  rw [← UInt8.toNat_inj, UInt8.toNat_ofNat_of_lt' small]

namespace Query

theorem checkEcho_eq_ok_iff {n : Nat} {request response : Bytes} :
    checkEcho n request response = .ok () ↔ response = request.take n :=
  ⟨eq_take_of_checkEcho, fun h => checkEcho_take h.symm⟩

/-- Counted data are accepted when their count is the one expected and they end where it says. -/
theorem countedData_eq_ok_iff {unit function : UInt8} {body data : Bytes} {n : Nat}
    (small : n < 256) :
    countedData n (unit :: function :: body) = .ok data ↔
      body = UInt8.ofNat n :: data ∧ data.length = n := by
  constructor
  · intro h
    cases body with
    | nil => cases h
    | cons count rest =>
      change (if count.toNat ≠ n then _ else if rest.length < n then _
        else if n < rest.length then _ else _) = _ at h
      split at h
      · cases h
      rename_i hcount
      split at h
      · cases h
      split at h
      · cases h
      obtain rfl := Except.ok.inj h
      exact ⟨by rw [(byte_eq_ofNat_iff small).2 (Decidable.not_not.1 hcount)], by omega⟩
  · rintro ⟨rfl, rfl⟩
    exact countedData_cons rfl small

end Query

namespace BitSeq

/-- Tidy runs of one size, in as many bytes, are the same when their bits are. -/
theorem eq_of_bit {s t : BitSeq} (tidy : s.Tidy) (tidy' : t.Tidy) (order : s.order = .lsb0)
    (order' : t.order = .lsb0) (size : s.size = t.size) (bytes : s.bytes.size = t.bytes.size)
    (bits : ∀ i, s.bit i = t.bit i) : s = t := by
  have digits : ∀ {u : BitSeq}, u.Tidy → u.order = .lsb0 → ∀ i,
      (u.bytes.toList.getD (i / 8) 0).toNat.testBit (i % 8) = u.bit i := by
    intro u tidy order i
    rw [← tidy.held_eq_bit, held, order, BitOrder.and_mask_lsb0, Array.getD_eq_getD_getElem?,
      List.getD_eq_getElem?_getD, Array.getElem?_toList]
  have same : s.bytes = t.bytes := by
    refine Array.toList_inj.1 (bytes_ext_testBit ?_ fun i => ?_)
    · rw [Array.length_toList, Array.length_toList, bytes]
    · rw [digits tidy order, digits tidy' order', bits]
  obtain ⟨_, _, _⟩ := s
  obtain ⟨_, _, _⟩ := t
  exact congr (congr (congrArg mk same) size) (order.trans order'.symm)

/-- As many bytes as hold them are taken for bits whatever stands behind the last. -/
theorem ofBytes_eq_ok_iff {n : Nat} {data : Bytes} {bits : BitSeq}
    (length : data.length = bytesForBits n) :
    ofBytes .lsb0 n data = .ok bits ↔
      bits = ofFn .lsb0 n fun i => (data.getD (i / 8) 0).toNat.testBit (i % 8) := by
  have fits : n ≤ 8 * data.length := by
    rw [length, bytesForBits]
    omega
  obtain ⟨s, hs⟩ := ofBytes_of_le .lsb0 fits
  obtain ⟨hsize, horder⟩ := size_ofBytes hs
  have bytes : s.bytes.size = bytesForBits n := by
    rw [ofBytes, if_neg (Nat.not_lt.2 fits)] at hs
    rw [← Except.ok.inj hs, List.size_toArray, List.length_mapIdx, length]
  have same : s = ofFn .lsb0 n fun i => (data.getD (i / 8) 0).toNat.testBit (i % 8) := by
    refine eq_of_bit (tidy_ofBytes hs) (tidy_ofFn ..) horder rfl hsize ?_ fun i => ?_
    · rw [bytes, ofFn, Array.size_ofFn]
    · rw [bit_ofBytes hs, bit_ofFn, BitOrder.and_mask_lsb0]
  rw [hs, ← same, Except.ok.injEq, eq_comm]

/-- Bits cut out of registers are digits of the bytes that were received. -/
theorem range_ofRegisters {registers : Bytes} {first n : Nat}
    (within : first + n ≤ 8 * registers.length) :
    (ofRegisters registers).range first (first + n) = ofFn .lsb0 n fun i =>
      ((swapWords registers).getD ((first + i) / 8) 0).toNat.testBit ((first + i) % 8) := by
  rw [range, Nat.add_sub_cancel_left]
  refine ofFn_congr fun i hi => ?_
  have hin : first + i < 8 * (swapWords registers).length := by
    rw [length_swapWords]
    omega
  rw [ofRegisters, bit_ofSwappedWords, decide_eq_true hin, Bool.true_and]

end BitSeq

namespace Standard

/-- The answer to the write of a coil is accepted when it is the request, whose state is one. -/
theorem acceptCoil_eq_ok_iff {unit function a b : UInt8} {state : UInt16} {response : Bytes}
    (known : state = coilOn ∨ state = coilOff) :
    acceptCoil (unit :: function :: a :: b :: wordBytes state) response = .ok () ↔
      response = unit :: function :: a :: b :: wordBytes state := by
  have echo : Query.checkEcho (unit :: function :: a :: b :: wordBytes state).length
      (unit :: function :: a :: b :: wordBytes state) response = .ok () ↔
      response = unit :: function :: a :: b :: wordBytes state := by
    rw [Query.checkEcho_eq_ok_iff, List.take_length]
  rw [acceptCoil.eq_def]
  split
  · dsimp only
    split
    · rename_i unknown
      constructor
      · intro h
        cases h
      · intro h
        -- the state of the request would be none
        obtain ⟨-, -, -, -, hhigh, hlow⟩ := by simpa [wordBytes] using h
        rw [hhigh, hlow, wordOf_wordBytes] at unknown
        rcases known with rfl | rfl
        · exact absurd rfl unknown.1
        · exact absurd rfl unknown.2
    · exact echo
  · exact echo

theorem acceptByte_eq_ok_iff {unit function b : UInt8} {body : Bytes} :
    acceptByte (unit :: function :: body) = .ok b ↔ body = [b] := by
  rcases body with _ | ⟨x, _ | ⟨y, rest⟩⟩
  · simp [acceptByte]
  · simp [acceptByte]
  · simp [acceptByte]

theorem acceptWords_eq_ok_iff {unit function : UInt8} {body : Bytes} {u v : UInt16} :
    acceptWords (unit :: function :: body) = .ok (u, v) ↔ body = wordBytes u ++ wordBytes v := by
  constructor
  · intro h
    rcases body with _ | ⟨a, _ | ⟨b, _ | ⟨c, _ | ⟨d, _ | ⟨e, rest⟩⟩⟩⟩⟩ <;> try cases h
    rw [wordBytes_wordOf, wordBytes_wordOf]
    rfl
  · rintro rfl
    change Except.ok (wordOf (u >>> 8).toUInt8 u.toUInt8, wordOf (v >>> 8).toUInt8 v.toUInt8) = _
    rw [wordOf_wordBytes, wordOf_wordBytes]

theorem acceptLog_eq_ok_iff {unit function : UInt8} {body : Bytes} {log : CommEventLog} :
    acceptLog (unit :: function :: body) = .ok log ↔ body = log.bytes ∧ log.Writable := by
  constructor
  · intro h
    rcases body with _ | ⟨count, data⟩
    · cases h
    change (if count.toNat < 6 ∨ count.toNat ≠ data.length then _ else _) = _ at h
    split at h
    · cases h
    rename_i counted
    obtain ⟨-, hcount⟩ := not_or.1 counted
    replace hcount := Decidable.not_not.1 hcount
    have small := count.toNat_lt
    rcases data with _ | ⟨a, _ | ⟨b, _ | ⟨c, _ | ⟨d, _ | ⟨e, _ | ⟨f, events⟩⟩⟩⟩⟩⟩ <;> try cases h
    have length : count.toNat = 6 + events.length := by
      simp only [List.length_cons] at hcount
      omega
    refine ⟨?_, ?_⟩
    · rw [CommEventLog.bytes, ← (byte_eq_ofNat_iff (length ▸ small)).2 length, wordBytes_wordOf,
        wordBytes_wordOf, wordBytes_wordOf]
      rfl
    · rw [CommEventLog.Writable, ← length]
      exact small
  · rintro ⟨rfl, writable⟩
    have hcount : (UInt8.ofNat (6 + log.events.length)).toNat = 6 + log.events.length :=
      UInt8.toNat_ofNat_of_lt' writable
    have hlength : (wordBytes log.status ++ wordBytes log.eventCount ++
        wordBytes log.messageCount ++ log.events).length = 6 + log.events.length := by
      simp only [wordBytes, List.length_append, List.length_cons, List.length_nil]
    change (if (UInt8.ofNat (6 + log.events.length)).toNat < 6 ∨
        (UInt8.ofNat (6 + log.events.length)).toNat ≠ (wordBytes log.status ++
          wordBytes log.eventCount ++ wordBytes log.messageCount ++ log.events).length
      then _ else _) = _
    rw [hcount, hlength, if_neg (by omega)]
    change Except.ok (CommEventLog.mk (wordOf (log.status >>> 8).toUInt8 log.status.toUInt8)
      (wordOf (log.eventCount >>> 8).toUInt8 log.eventCount.toUInt8)
      (wordOf (log.messageCount >>> 8).toUInt8 log.messageCount.toUInt8) log.events) = _
    rw [wordOf_wordBytes, wordOf_wordBytes, wordOf_wordBytes]

/-- Objects are read when they were written out, and nothing is left behind them. -/
theorem readObjects_eq_ok_iff {count : Nat} {data : Bytes} {objects : List DeviceObject} :
    readObjects count data = .ok objects ↔
      objects.length = count ∧ data = objects.flatMap DeviceObject.bytes ∧
        ∀ object ∈ objects, object.Writable := by
  induction count generalizing data objects with
  | zero =>
    rw [List.length_eq_zero_iff]
    constructor
    · intro h
      rcases data with _ | ⟨x, rest⟩
      · obtain rfl := Except.ok.inj h
        exact ⟨rfl, rfl, fun _ hmem => absurd hmem List.not_mem_nil⟩
      · cases h
    · rintro ⟨rfl, rfl, -⟩
      rfl
  | succ count ih =>
    constructor
    · intro h
      rcases data with _ | ⟨id, _ | ⟨length, rest⟩⟩
      · cases h
      · cases h
      rw [readObjects] at h
      split at h
      · cases h
      rename_i within
      obtain ⟨others, hothers, h⟩ := bind_eq_ok h
      obtain rfl := Except.ok.inj h
      obtain ⟨hcount, hdrop, writable⟩ := ih.1 hothers
      have hlength : (rest.take length.toNat).length = length.toNat :=
        List.length_take_of_le (Nat.not_lt.1 within)
      refine ⟨congrArg (· + 1) hcount, ?_, ?_⟩
      · rw [List.flatMap_cons, ← hdrop, DeviceObject.bytes, hlength, UInt8.ofNat_toNat,
          List.cons_append, List.cons_append, List.take_append_drop]
      · intro object hmem
        rcases List.mem_cons.1 hmem with rfl | hmem
        · rw [DeviceObject.Writable, hlength]
          exact length.toNat_lt
        · exact writable object hmem
    · rintro ⟨hcount, rfl, writable⟩
      rcases objects with _ | ⟨object, others⟩
      · cases hcount
      have small : object.value.length < 256 := writable object (List.mem_cons_self ..)
      rw [List.flatMap_cons, DeviceObject.bytes, List.cons_append, List.cons_append, readObjects,
        UInt8.toNat_ofNat_of_lt' small, if_neg (by rw [List.length_append]; omega),
        List.drop_left, List.take_left,
        ih.2 ⟨Nat.succ.inj hcount, rfl, fun o hmem => writable o (List.mem_cons_of_mem _ hmem)⟩]
      rfl

theorem acceptObjects_eq_ok_iff {unit function : UInt8} {request body : Bytes}
    {objects : List DeviceObject} :
    acceptObjects (unit :: function :: body) = .ok objects ↔
      Grammar.Identification (unit :: function :: request) (unit :: function :: body) objects := by
  constructor
  · intro h
    rcases body with _ | ⟨kind, rest⟩
    · cases h
    change (if kind ≠ identificationKind then _ else _) = _ at h
    split at h
    · cases h
    rename_i hkind
    obtain rfl : kind = identificationKind := Decidable.not_not.1 hkind
    rcases rest with _ | ⟨code, _ | ⟨conformity, _ | ⟨more, _ | ⟨next, _ | ⟨count, data⟩⟩⟩⟩⟩ <;>
      try cases h
    obtain ⟨hcount, rfl, writable⟩ := readObjects_eq_ok_iff.1 h
    refine ⟨code, conformity, more, next, ?_, ?_, writable⟩
    · rw [hcount, UInt8.ofNat_toNat]
      rfl
    · rw [hcount]
      exact count.toNat_lt
  · rintro ⟨code, conformity, more, next, hbody, small, writable⟩
    obtain ⟨-, hbody⟩ := List.cons.inj hbody
    obtain ⟨-, rfl⟩ := List.cons.inj hbody
    change readObjects (UInt8.ofNat objects.length).toNat _ = _
    rw [UInt8.toNat_ofNat_of_lt' small]
    exact readObjects_eq_ok_iff.2 ⟨rfl, rfl, writable⟩

end Standard

end BusMaster
