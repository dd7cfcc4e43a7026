import BusMaster.Frame.Bridge
import BusMaster.Proofs.Frame.Reception
import BusMaster.Proofs.Words

/-!
# Frames behind a bridge

A frame says twice how long it is, in its header and in its body (`Frame`), so where one frame ends
can be told without the next one: bytes are whole frames in one way at most (`flatMap_bytes_cancel`).
A receiver that starts at the beginning of a frame passes from frame to frame. It stops at the end
of the first frame of its transaction, or has taken all bytes that came in time
(`receive_outcome`).
-/

namespace BusMaster.Bridge

/-! ## Frames -/

/-- a frame whose body is as long as it says -/
structure Frame where
  id : UInt16
  body : Bytes
  whole : responseLength body = .ok (.exact body.length)

namespace Frame

/-- the header -/
def header (f : Frame) : Bytes :=
  wordBytes f.id ++ wordBytes 0 ++ wordBytes (UInt16.ofNat f.body.length)

/-- the bytes on the wire -/
def bytes (f : Frame) : Bytes := encode f.id f.body

variable {f g : Frame}

theorem bytes_eq (f : Frame) : f.bytes = f.header ++ f.body := rfl

theorem length_header (f : Frame) : f.header.length = headerLength := rfl

theorem length_bytes (f : Frame) : f.bytes.length = headerLength + f.body.length := by
  rw [bytes_eq, List.length_append, length_header]

theorem two_le_body (f : Frame) : 2 ≤ f.body.length := two_le_responseLength f.whole

theorem parseHeader_header (f : Frame) : parseHeader f.header = .ok (f.id, f.body.length) := by
  have hlength : (UInt16.ofNat f.body.length).toNat = f.body.length := by
    have hle := le_of_responseLength f.whole
    rw [maxAdu] at hle
    rw [UInt16.toNat_ofNat', Nat.mod_eq_of_lt (by omega)]
  have hwords (i n : UInt16) : parseHeader (wordBytes i ++ wordBytes 0 ++ wordBytes n)
      = .ok (wordOf (i >>> 8).toUInt8 i.toUInt8, (wordOf (n >>> 8).toUInt8 n.toUInt8).toNat) := rfl
  rw [header, hwords, wordOf_wordBytes, wordOf_wordBytes, hlength]

/-- Two frames at the same place are the same, whatever follows them. -/
theorem bytes_append_inj {x y : Bytes} (h : f.bytes ++ x = g.bytes ++ y) : f = g ∧ x = y := by
  rw [bytes_eq, bytes_eq, List.append_assoc, List.append_assoc] at h
  obtain ⟨hheader, hrest⟩ := List.append_inj h rfl
  have hparsed := f.parseHeader_header
  rw [hheader, g.parseHeader_header] at hparsed
  obtain ⟨hid, hlength⟩ := Prod.mk.inj (Except.ok.inj hparsed)
  obtain ⟨hbody, hxy⟩ := List.append_inj hrest hlength.symm
  refine ⟨?_, hxy⟩
  cases f
  cases g
  cases hid
  cases hbody
  rfl

end Frame

/-- bytes that are a number of whole frames -/
def Whole (bytes : Bytes) : Prop := ∃ fs : List Frame, bytes = fs.flatMap Frame.bytes

theorem Whole.append {first second : Bytes} (h : Whole first) (h' : Whole second) :
    Whole (first ++ second) := by
  obtain ⟨fs, rfl⟩ := h
  obtain ⟨gs, rfl⟩ := h'
  exact ⟨fs ++ gs, List.flatMap_append.symm⟩

/-- Behind whole frames in front come the frames that are left. -/
theorem flatMap_bytes_cancel {fs gs : List Frame} {x : Bytes}
    (h : fs.flatMap Frame.bytes ++ x = gs.flatMap Frame.bytes) :
    ∃ rest, gs = fs ++ rest ∧ x = rest.flatMap Frame.bytes := by
  induction fs generalizing gs with
  | nil => exact ⟨gs, rfl, h⟩
  | cons f fs ih =>
    rw [List.flatMap_cons, List.append_assoc] at h
    rcases gs with _ | ⟨g, gs⟩
    · have hlength := congrArg List.length h
      rw [List.length_append, Frame.length_bytes, headerLength, List.flatMap_nil,
        List.length_nil] at hlength
      omega
    · rw [List.flatMap_cons] at h
      obtain ⟨rfl, hrest⟩ := Frame.bytes_append_inj h
      obtain ⟨rest, rfl, hx⟩ := ih hrest
      exact ⟨rest, rfl, hx⟩

theorem prefix_of_flatMap_bytes {fs gs : List Frame}
    (h : fs.flatMap Frame.bytes <+: gs.flatMap Frame.bytes) : fs <+: gs := by
  obtain ⟨x, hx⟩ := h
  obtain ⟨rest, rfl, -⟩ := flatMap_bytes_cancel hx
  exact List.prefix_append ..

theorem Whole.cancel {first second : Bytes} (h : Whole (first ++ second)) (h' : Whole first) :
    Whole second := by
  obtain ⟨fs, rfl⟩ := h'
  obtain ⟨gs, hgs⟩ := h
  obtain ⟨rest, -, hsecond⟩ := flatMap_bytes_cancel hgs
  exact ⟨rest, hsecond⟩

/-! ## The receiver -/

variable {detail : FrameDetail} {w : Waiting} {f : Frame}

/-- Within a frame the receiver asks for bytes of that frame only. -/
theorem await_partial (detail : FrameDetail) (begun : w.rx <+: f.bytes)
    (short : w.rx.length < f.bytes.length) :
    ∃ n, await detail w = (.ask n w, []) ∧ w.rx.length + max n 1 ≤ f.bytes.length := by
  have htwo := f.two_le_body
  rw [f.length_bytes] at short ⊢
  rw [await]
  dsimp only
  by_cases header : w.rx.length < headerLength
  · rw [if_pos header]
    refine ⟨_, rfl, ?_⟩
    omega
  rw [if_neg header]
  rw [Nat.not_lt] at header
  have hbody : w.rx.drop headerLength <+: f.body := by
    obtain ⟨rest, hrest⟩ := begun
    refine ⟨rest, ?_⟩
    rw [← List.drop_append_of_le_length header, hrest, f.bytes_eq,
      List.drop_left' f.length_header]
  obtain ⟨l, hl, refines⟩ := responseLength_of_isPrefix hbody f.whole
  rw [List.length_drop] at refines
  rw [hl]
  cases refines with
  | exact =>
    dsimp only
    rw [if_pos short]
    refine ⟨_, rfl, ?_⟩
    omega
  | atLeast hmore hle =>
    change _ ≤ f.body.length at hle
    refine ⟨_, rfl, ?_⟩
    omega

/-- what the receiver of a transaction makes of a frame with its id -/
def Waiting.answer (w : Waiting) (f : Frame) : Except FrameFault Bytes :=
  (checkHeader w.unit w.function f.body).map fun _ => f.body

/-- At the end of a frame the receiver is through if the frame is of its transaction, and else looks
for the next one. -/
theorem await_whole (detail : FrameDetail) (complete : w.rx = f.bytes) :
    (f.id = w.id ∧ ∃ said, await detail w = (.done (w.answer f), said)) ∨
    (f.id ≠ w.id ∧ await detail w =
      (.ask (headerLength + 2) { w with rx := [] }, [staleLine f.id w.id])) := by
  have hawait : await detail w = accept detail w f.header f.body := by
    have hdrop : w.rx.drop headerLength = f.body := by
      rw [complete, f.bytes_eq, List.drop_left' f.length_header]
    have htake : w.rx.take headerLength = f.header := by
      rw [complete, f.bytes_eq, List.take_left' f.length_header]
    have hlength : w.rx.length = headerLength + f.body.length := by
      rw [complete, f.length_bytes]
    rw [await]
    dsimp only
    rw [hdrop, f.whole, htake, hlength, if_neg (by omega)]
    dsimp only
    rw [if_neg (Nat.lt_irrefl _), List.take_length]
  rw [hawait, accept, f.parseHeader_header]
  dsimp only
  rw [if_neg (not_not_intro rfl)]
  by_cases own : f.id = w.id
  · rw [if_neg (not_not_intro own), Waiting.answer]
    refine .inl ⟨own, frameLine detail "RX" f.id f.body, ?_⟩
    rcases checkHeader w.unit w.function f.body with fault | ⟨⟨⟩⟩ <;> rfl
  · exact .inr ⟨own, if_pos own⟩

/-- some bytes of the next frame, or all -/
def Begun (rx : Bytes) : List Frame → Prop
  | [] => rx = []
  | f :: _ => rx <+: f.bytes

/-- some bytes of the next frame, but not all -/
def Part (rx : Bytes) : List Frame → Prop
  | [] => rx = []
  | f :: _ => rx <+: f.bytes ∧ rx.length < f.bytes.length

/-- What a receiver does next: it is through, or it asks for bytes of one frame only. -/
theorem await_cases {fs : List Frame} (begun : Begun w.rx fs) :
    (∃ own rest said, fs = own :: rest ∧ own.id = w.id ∧ w.rx = own.bytes ∧
      await detail w = (.done (w.answer own), said)) ∨
    ∃ stale rest rx n said, fs = stale ++ rest ∧ (∀ f ∈ stale, f.id ≠ w.id) ∧
      w.rx = stale.flatMap Frame.bytes ++ rx ∧ Part rx rest ∧
      (∀ f ∈ rest.head?, rx.length + max n 1 ≤ f.bytes.length) ∧
      await detail w = (.ask n { w with rx := rx }, said) := by
  have fresh : ∀ {rest : List Frame}, Part [] rest := by
    intro rest
    cases rest with
    | nil => rfl
    | cons f rest =>
      refine ⟨List.nil_prefix, ?_⟩
      rw [f.length_bytes, headerLength]
      exact Nat.lt_of_lt_of_le (Nat.zero_lt_succ 5) (Nat.le_add_right ..)
  have next : ∀ {rest : List Frame}, ∀ f ∈ rest.head?,
      ([] : Bytes).length + max (headerLength + 2) 1 ≤ f.bytes.length := by
    intro rest f _
    have htwo := f.two_le_body
    rw [f.length_bytes, headerLength, List.length_nil]
    omega
  cases fs with
  | nil =>
    obtain ⟨id, unit, function, rx⟩ := w
    obtain rfl : rx = [] := begun
    exact .inr ⟨[], [], [], _, _, rfl, List.forall_mem_nil _, rfl, fresh, next, rfl⟩
  | cons f rest =>
    rcases Nat.lt_or_ge w.rx.length f.bytes.length with short | long
    · obtain ⟨n, hask, hle⟩ := await_partial detail begun short
      refine .inr ⟨[], f :: rest, w.rx, n, [], rfl, List.forall_mem_nil _, rfl, ⟨begun, short⟩,
        fun g hg => ?_, hask⟩
      obtain rfl := Option.some.inj hg
      exact hle
    · have complete : w.rx = f.bytes := begun.eq_of_length_le long
      rcases await_whole detail complete with ⟨own, said, hdone⟩ | ⟨stale, hask⟩
      · exact .inl ⟨f, rest, said, rfl, own, complete, hdone⟩
      · refine .inr ⟨[f], rest, [], _, _, rfl, fun g hg => ?_, ?_, fresh, next, hask⟩
        · obtain rfl := List.mem_singleton.1 hg
          exact stale
        · rw [complete, List.flatMap_singleton, List.append_nil]

/-- how listening for a response can end, when what comes in are frames -/
inductive Outcome (w : Waiting) (fs : List Frame) (deadline : Moment) (queue : List Arrival)
    (now : Moment) (r : Reception) : Prop where
  /-- with the first frame of the transaction, which was there in time -/
  | answered {stale rest : List Frame} {own : Frame} :
      fs = stale ++ own :: rest → (∀ f ∈ stale, f.id ≠ w.id) → own.id = w.id →
      (stale ++ [own]).flatMap Frame.bytes <+: w.rx ++ Arrival.timely deadline queue now →
      w.rx ++ Arrival.content queue
        = (stale ++ [own]).flatMap Frame.bytes ++ Arrival.content r.rest →
      r.result = (w.answer own).mapError .frame → Outcome w fs deadline queue now r
  /-- with none: all that came in time was taken, or the link failed -/
  | unanswered {stale rest : List Frame} {part : Bytes} :
      fs = stale ++ rest → (∀ f ∈ stale, f.id ≠ w.id) →
      w.rx ++ Arrival.timely deadline queue now = stale.flatMap Frame.bytes ++ part →
      Part part rest →
      (r.result = .error .noReply ∧
        Arrival.content queue = Arrival.timely deadline queue now ++ Arrival.content r.rest) ∨
        (∃ f, r.result = .error (.link f)) → Outcome w fs deadline queue now r

/-- Frames that were passed over come before the rest. -/
theorem Outcome.behind {w' : Waiting} {fs stale : List Frame} {deadline : Moment}
    {queue queue' : List Arrival} {now now' : Moment} {r : Reception} {rx data : Bytes}
    (h : Outcome w' fs deadline queue' now' r) (id : w'.id = w.id) (unit : w'.unit = w.unit)
    (function : w'.function = w.function) (others : ∀ f ∈ stale, f.id ≠ w.id)
    (hrx : w.rx = stale.flatMap Frame.bytes ++ rx) (hrx' : w'.rx = rx ++ data)
    (content : Arrival.content queue = data ++ Arrival.content queue')
    (timely : Arrival.timely deadline queue now = data ++ Arrival.timely deadline queue' now') :
    Outcome w (stale ++ fs) deadline queue now r := by
  have hall : ∀ {more : List Frame}, (∀ f ∈ more, f.id ≠ w'.id) →
      ∀ f ∈ stale ++ more, f.id ≠ w.id := by
    intro more hmore f hf
    rcases List.mem_append.1 hf with hf | hf
    · exact others f hf
    · exact id ▸ hmore f hf
  have htimely : w.rx ++ Arrival.timely deadline queue now
      = stale.flatMap Frame.bytes ++ (w'.rx ++ Arrival.timely deadline queue' now') := by
    rw [hrx, hrx', timely, List.append_assoc, List.append_assoc]
  cases h with
  | @answered more rest own hfs hmore hown hfront hcontent hresult =>
    refine .answered (by rw [hfs, List.append_assoc]) (hall hmore) (hown.trans id) ?_ ?_ ?_
    · rw [htimely, List.append_assoc, List.flatMap_append]
      exact (List.prefix_append_right_inj _).2 hfront
    · rw [hrx, content, List.append_assoc, ← List.append_assoc rx, ← hrx', hcontent,
        List.append_assoc stale, ← List.append_assoc, ← List.flatMap_append]
    · rw [hresult, Waiting.answer, Waiting.answer, unit, function]
  | @unanswered more rest part hfs hmore htaken hpart hend =>
    refine .unanswered (by rw [hfs, List.append_assoc]) (hall hmore) ?_ hpart ?_
    · rw [htimely, htaken, List.flatMap_append, List.append_assoc]
    · refine hend.imp_left fun ⟨hresult, hrest⟩ => ⟨hresult, ?_⟩
      rw [content, hrest, timely, List.append_assoc]

/-- The next bytes of a frame that has begun belong to that frame. -/
theorem begun_append {fs : List Frame} {rx data rest : Bytes}
    (short : ∀ f ∈ fs.head?, rx.length + data.length ≤ f.bytes.length)
    (frames : rx ++ data ++ rest <+: fs.flatMap Frame.bytes) : Begun (rx ++ data) fs := by
  have hdata : rx ++ data <+: fs.flatMap Frame.bytes := (List.prefix_append ..).trans frames
  cases fs with
  | nil => exact List.prefix_nil.1 hdata
  | cons f fs =>
    rw [List.flatMap_cons] at hdata
    refine List.prefix_of_prefix_length_le hdata (List.prefix_append ..) ?_
    rw [List.length_append]
    exact short f rfl

/-- **A receiver that starts at the beginning of a frame takes whole frames, up to the first one of
its transaction, or all that comes in time.** -/
theorem receive_outcome {raw : RawDetail} {deadline : Moment} {fs : List Frame}
    {queue : List Arrival} {now : Moment} {lines : List LogLine} (begun : Begun w.rx fs)
    (frames : w.rx ++ Arrival.content queue <+: fs.flatMap Frame.bytes) :
    Outcome w fs deadline queue now (receive (receiver detail) raw deadline w queue now lines) := by
  have finished : ∀ {w : Waiting} {fs : List Frame} {result : Except FrameFault Bytes}
      {said : List LogLine} {queue : List Arrival} {now : Moment}, Begun w.rx fs →
      await detail w = (.done result, said) → ∀ lines,
      Outcome w fs deadline queue now ⟨result.mapError .frame, queue, now, lines⟩ := by
    intro w fs result said queue now begun hpoll lines
    rcases await_cases begun with ⟨own, rest, said', rfl, hid, hrx, hdone⟩
      | ⟨_, _, _, _, _, -, -, -, -, -, hask⟩
    · obtain ⟨hresult, -⟩ := Prod.mk.inj (hpoll.symm.trans hdone)
      obtain rfl := Progress.done.inj hresult
      have hfirst : own :: rest = [] ++ own :: rest := rfl
      refine .answered hfirst (List.forall_mem_nil _) hid ?_ ?_ rfl
      · rw [hrx, List.nil_append, List.flatMap_singleton]
        exact List.prefix_append ..
      · rw [hrx, List.nil_append, List.flatMap_singleton]
    · rw [hpoll] at hask
      cases hask
  -- the receiver goes on with fewer bytes to come, and behind the frames it has passed over
  fun_induction receive (receiver detail) raw deadline w queue now lines generalizing fs with
  | case1 w queue now lines adu said hpoll => exact finished begun hpoll _
  | case2 w queue now lines fault said hpoll => exact finished begun hpoll _
  | case3 w queue now lines n w' said hpoll f rest moment hhear =>
    rcases await_cases begun with ⟨_, _, _, -, -, -, hdone⟩
      | ⟨stale, fs, rx, _, _, rfl, others, hrx, part, -, -⟩
    · cases hpoll.symm.trans hdone
    · refine .unanswered rfl others ?_ part (.inr ⟨f, rfl⟩)
      rw [hrx, Arrival.hear_failed hhear, List.append_nil]
  | case4 w queue now lines n w' said hpoll rest moment hhear =>
    obtain ⟨htimely, hcontent⟩ := Arrival.hear_silence hhear
    rcases await_cases begun with ⟨_, _, _, -, -, -, hdone⟩
      | ⟨stale, fs, rx, _, _, rfl, others, hrx, part, -, -⟩
    · cases hpoll.symm.trans hdone
    · refine .unanswered rfl others ?_ part (.inl ⟨rfl, ?_⟩)
      · rw [hrx, htimely, List.append_nil]
      · rw [htimely, List.nil_append, hcontent]
  | case5 w queue now lines n w' said hpoll data rest moment hhear ih =>
    obtain ⟨-, hlength, hcontent, htimely⟩ := Arrival.hear_data hhear
    rcases await_cases begun with ⟨_, _, _, -, -, -, hdone⟩
      | ⟨stale, fs, rx, _, _, rfl, others, hrx, -, short, hask⟩
    · cases hpoll.symm.trans hdone
    obtain ⟨hprogress, -⟩ := Prod.mk.inj (hpoll.symm.trans hask)
    obtain ⟨rfl, rfl⟩ := Progress.ask.inj hprogress
    have frames' : rx ++ data ++ Arrival.content rest <+: fs.flatMap Frame.bytes := by
      rw [hrx, hcontent, List.append_assoc, List.flatMap_append] at frames
      rw [List.append_assoc]
      exact (List.prefix_append_right_inj _).1 frames
    have begun' : Begun (rx ++ data) fs := begun_append (fun f hf => by
      have := short f hf
      omega) frames'
    exact (ih begun' frames').behind rfl rfl rfl others hrx rfl hcontent htimely

/-- No frame is within a part of one. -/
theorem Part.not_whole {part : Bytes} {fs : List Frame} (h : Part part fs) (g : Frame) :
    ¬g.bytes <+: part := by
  intro hg
  cases fs with
  | nil =>
    obtain rfl : part = [] := h
    have hle := hg.length_le
    rw [g.length_bytes, headerLength, List.length_nil] at hle
    omega
  | cons f fs =>
    obtain ⟨hpart, hshort⟩ := h
    obtain ⟨x, hx⟩ := hg.trans hpart
    rw [← List.append_nil f.bytes] at hx
    obtain ⟨rfl, -⟩ := Frame.bytes_append_inj hx
    exact Nat.not_lt.2 hg.length_le hshort

/-- If a response of the transaction was there in time, behind other frames only, it is the one that
listening ends with. -/
theorem Outcome.eq_answer {fs front : List Frame} {own : Frame} {deadline : Moment}
    {queue : List Arrival} {now : Moment} {r : Reception} (h : Outcome w fs deadline queue now r)
    (others : ∀ f ∈ front, f.id ≠ w.id) (hown : own.id = w.id)
    (inTime : (front ++ [own]).flatMap Frame.bytes <+:
      w.rx ++ Arrival.timely deadline queue now) :
    r.result = (w.answer own).mapError .frame := by
  -- the frames of another transaction cannot reach as far as the response
  have reaches : ∀ {stale : List Frame}, (∀ f ∈ stale, f.id ≠ w.id) → ¬front ++ [own] <+: stale :=
    fun hstale h => hstale own (h.subset (List.mem_append_right _ (List.mem_singleton_self _))) hown
  cases h with
  | @answered stale rest own' _ hstale hown' hfront _ hresult =>
    rcases List.prefix_or_prefix_of_prefix inTime hfront with hle | hle
    · rcases List.prefix_concat_iff.1 (prefix_of_flatMap_bytes hle) with heq | hle
      · obtain ⟨-, hlast⟩ := List.append_inj' heq rfl
        obtain rfl := List.singleton_inj.1 hlast
        exact hresult
      · exact absurd hle (reaches hstale)
    · rcases List.prefix_concat_iff.1 (prefix_of_flatMap_bytes hle) with heq | hle
      · obtain ⟨-, hlast⟩ := List.append_inj' heq rfl
        obtain rfl := List.singleton_inj.1 hlast
        exact hresult
      · have hmem : own' ∈ front :=
          hle.subset (List.mem_append_right _ (List.mem_singleton_self _))
        exact absurd hown' (others own' hmem)
  | @unanswered stale rest part _ hstale htaken hpart _ =>
    rw [htaken] at inTime
    rcases List.prefix_or_prefix_of_prefix inTime (List.prefix_append ..) with hle | hle
    · exact absurd (prefix_of_flatMap_bytes hle) (reaches hstale)
    · obtain ⟨more, hmore⟩ := prefix_of_flatMap_bytes hle
      rcases more with _ | ⟨g, more⟩
      · rw [List.append_nil] at hmore
        exact absurd (hmore ▸ List.prefix_rfl) (reaches hstale)
      · rw [← hmore, List.flatMap_append, List.prefix_append_right_inj, List.flatMap_cons] at inTime
        exact absurd ((List.prefix_append ..).trans inTime) (hpart.not_whole g)

/-! ## Bytes that need not be frames

The receiver asks for no byte past the end of the frame it is in (`Fits`), and it goes on only if what
it has is a frame. So what it has taken when it is through are frames, whatever comes in.
-/

variable {header body adu : Bytes}

/-- The six bytes of a header that could be read. -/
theorem eq_of_parseHeader {id : UInt16} {length : Nat} (h : parseHeader header = .ok (id, length)) :
    header = wordBytes id ++ wordBytes 0 ++ wordBytes (UInt16.ofNat length) := by
  rw [parseHeader.eq_def] at h
  split at h
  · rename_i i j p q m n
    split at h
    · cases h
    · rename_i protocol
      obtain ⟨rfl, rfl⟩ := Prod.mk.inj (Except.ok.inj h)
      rw [← Decidable.not_not.1 protocol, UInt16.ofNat_toNat, wordBytes_wordOf, wordBytes_wordOf,
        wordBytes_wordOf]
      rfl
  · cases h

/-- A header and the body it tells of are a frame. -/
theorem exists_frame {id : UInt16} (hheader : parseHeader header = .ok (id, body.length))
    (whole : responseLength body = .ok (.exact body.length)) :
    ∃ f : Frame, f.id = id ∧ f.body = body ∧ f.bytes = header ++ body :=
  ⟨⟨id, body, whole⟩, rfl, rfl, by rw [Frame.bytes_eq, Frame.header, eq_of_parseHeader hheader]⟩

/-- What is passed over is a frame of another transaction. -/
theorem accept_ask (whole : responseLength body = .ok (.exact body.length)) {n : Nat}
    {asking : Waiting} (h : (accept detail w header body).1 = .ask n asking) :
    n = headerLength + 2 ∧ asking = { w with rx := [] } ∧
      ∃ f : Frame, f.id ≠ w.id ∧ f.bytes = header ++ body := by
  rw [accept] at h
  split at h
  · cases h
  rename_i id length hheader
  split at h
  · cases h
  rename_i hlength
  obtain rfl := Decidable.not_not.1 hlength
  obtain ⟨f, rfl, -, hbytes⟩ := exists_frame hheader whole
  split at h
  · rename_i other
    obtain ⟨rfl, rfl⟩ := Progress.ask.inj h
    exact ⟨rfl, rfl, f, other, hbytes⟩
  · split at h <;> cases h

/-- What is accepted is the body of a frame of the transaction. -/
theorem accept_done (whole : responseLength body = .ok (.exact body.length))
    (h : (accept detail w header body).1 = .done (.ok adu)) :
    checkHeader w.unit w.function adu = .ok () ∧
      ∃ f : Frame, f.id = w.id ∧ f.body = adu ∧ f.bytes = header ++ body := by
  rw [accept] at h
  split at h
  · cases h
  rename_i id length hheader
  split at h
  · cases h
  rename_i hlength
  obtain rfl := Decidable.not_not.1 hlength
  obtain ⟨f, rfl, rfl, hbytes⟩ := exists_frame hheader whole
  split at h
  · cases h
  rename_i own
  split at h
  · rename_i hcheck
    obtain rfl := Except.ok.inj (Progress.done.inj h)
    exact ⟨hcheck, f, Decidable.not_not.1 own, rfl, hbytes⟩
  · cases h

/-- no bytes past the end of the frame that they begin -/
def Fits (rx : Bytes) : Prop :=
  ∀ n, responseLength (rx.drop headerLength) = .ok (.exact n) → rx.length ≤ headerLength + n

/-- A header and the first two bytes of a body go past no end. -/
theorem fits_of_le {rx : Bytes} (h : rx.length ≤ headerLength + 2) : Fits rx :=
  fun _ hn => h.trans (Nat.add_le_add_left (two_le_responseLength hn) _)

/-- Of a frame that has its bytes and no more nothing is left behind it. -/
theorem Fits.take {rx : Bytes} (fits : Fits rx) {n : Nat}
    (hn : responseLength (rx.drop headerLength) = .ok (.exact n))
    (complete : ¬rx.length < headerLength + n) :
    (rx.drop headerLength).take n = rx.drop headerLength ∧
      responseLength (rx.drop headerLength) = .ok (.exact (rx.drop headerLength).length) := by
  have hle := fits n hn
  have hlength : (rx.drop headerLength).length = n := by
    rw [List.length_drop]
    omega
  rw [hlength, ← hlength, List.take_length]
  exact ⟨rfl, hlength ▸ hn⟩

/-- What a receiver asks for goes past no end. -/
theorem Fits.await_ask (fits : Fits w.rx) {n : Nat} {asking : Waiting}
    (h : (await detail w).1 = .ask n asking) :
    (∀ data : Bytes, data.length ≤ max n 1 → Fits (asking.rx ++ data)) ∧ (asking = w ∨
      asking = { w with rx := [] } ∧ ∃ f : Frame, f.id ≠ w.id ∧ f.bytes = w.rx) := by
  rw [await] at h
  dsimp only at h
  split at h
  · rename_i short
    obtain ⟨rfl, rfl⟩ := Progress.ask.inj h
    refine ⟨fun data hdata => fits_of_le ?_, .inl rfl⟩
    rw [List.length_append]
    omega
  rename_i long
  rw [Nat.not_lt] at long
  -- more bytes come behind those that told the length
  have told := fun data => responseLength_told
    (List.prefix_append (w.rx.drop headerLength) data)
  split at h
  · cases h
  · rename_i m hm
    obtain ⟨rfl, rfl⟩ := Progress.ask.inj h
    refine ⟨fun data hdata k hk => ?_, .inl rfl⟩
    have htold := told data
    rw [hm, ← List.drop_append_of_le_length long, hk] at htold
    cases htold with
    | atLeast more _ hle =>
      have hle' : m ≤ k := hle _ rfl
      rw [List.length_drop] at more
      rw [List.length_append]
      omega
  · rename_i m hm
    split at h
    · rename_i short
      obtain ⟨rfl, rfl⟩ := Progress.ask.inj h
      refine ⟨fun data hdata k hk => ?_, .inl rfl⟩
      have htold := told data
      rw [hm, ← List.drop_append_of_le_length long, hk] at htold
      cases htold with
      | exact =>
        rw [List.length_append]
        omega
    · rename_i complete
      obtain ⟨hbody, whole⟩ := fits.take hm complete
      rw [hbody] at h
      obtain ⟨rfl, rfl, f, other, hbytes⟩ := accept_ask whole h
      rw [List.take_append_drop] at hbytes
      exact ⟨fun data hdata => fits_of_le hdata, .inr ⟨rfl, f, other, hbytes⟩⟩

/-- A receiver that is through has the bytes of a frame and no more. -/
theorem Fits.await_done (fits : Fits w.rx) (h : (await detail w).1 = .done (.ok adu)) :
    checkHeader w.unit w.function adu = .ok () ∧
      ∃ f : Frame, f.id = w.id ∧ f.body = adu ∧ f.bytes = w.rx := by
  rw [await] at h
  split at h
  · cases h
  split at h
  · cases h
  · cases h
  rename_i n hn
  split at h
  · cases h
  rename_i complete
  obtain ⟨hbody, whole⟩ := fits.take hn complete
  rw [hbody] at h
  obtain ⟨hcheck, f, own, hadu, hbytes⟩ := accept_done whole h
  rw [List.take_append_drop] at hbytes
  exact ⟨hcheck, f, own, hadu, hbytes⟩

variable {id : UInt16} {unit function : UInt8} {raw : RawDetail} {deadline : Moment}
  {queue : List Arrival} {now : Moment} {lines : List LogLine}

/-- **What is received behind a bridge is the body of a frame of its transaction**, whatever comes
in. The frames before it are of other transactions, and no byte behind it was taken. -/
theorem frames_of_receive
    (h : (receive (receiver detail) raw deadline ⟨id, unit, function, []⟩ queue now lines).result
      = .ok adu) :
    ∃ (stale : List Frame) (own : Frame), (∀ f ∈ stale, f.id ≠ id) ∧ own.id = id ∧
      own.body = adu ∧ Headed unit function adu ∧ Arrival.content queue =
        (stale ++ [own]).flatMap Frame.bytes ++ Arrival.content
          (receive (receiver detail) raw deadline ⟨id, unit, function, []⟩ queue now lines).rest := by
  obtain ⟨taken, last, -, ⟨hlast, fits, stale, others, htaken⟩, hdone, hcontent⟩ := done_of_receive
    (I := fun taken w => w = ⟨id, unit, function, w.rx⟩ ∧ Fits w.rx ∧ ∃ stale : List Frame,
      (∀ f ∈ stale, f.id ≠ id) ∧ taken = stale.flatMap Frame.bytes ++ w.rx)
    (fun {taken w n asking data} ⟨hw, fits, stale, others, htaken⟩ hask hdata => by
      obtain ⟨fits', rfl | ⟨rfl, f, other, hbytes⟩⟩ := fits.await_ask hask
      · refine ⟨by rw [hw]; rfl, fits' data hdata, stale, others, ?_⟩
        rw [htaken, List.append_assoc]
        rfl
      · refine ⟨by rw [hw]; rfl, fits' data hdata, stale ++ [f], fun g hg => ?_, ?_⟩
        · rcases List.mem_append.1 hg with hg | hg
          · exact others g hg
          · rw [List.mem_singleton.1 hg]
            rwa [hw] at other
        · rw [htaken, ← hbytes, List.flatMap_append, List.flatMap_singleton]
          rfl)
    ⟨rfl, fits_of_le (Nat.zero_le _), [], List.forall_mem_nil _, rfl⟩ h
  obtain ⟨hcheck, own, hown, rfl, hbytes⟩ := fits.await_done hdone
  rw [hlast] at hcheck hown
  refine ⟨stale, own, others, hown, rfl, headed_of_checkHeader hcheck own.two_le_body, ?_⟩
  rw [hcontent, htaken, ← hbytes, List.flatMap_append, List.flatMap_singleton]

/-- **What is received behind a bridge is a response**, whatever comes in. -/
theorem response_of_receive
    (h : (receive (receiver detail) raw deadline ⟨id, unit, function, []⟩ queue now lines).result
      = .ok adu) : Response unit function adu := by
  obtain ⟨-, own, -, -, rfl, headed, -⟩ := frames_of_receive h
  exact ⟨headed, own.whole⟩

end BusMaster.Bridge
