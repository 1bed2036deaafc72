import MwStreamer.Remuxer.NalFilter

/-!
# Invalid NAL headers

`splitH264` finds the NALs of an Annex B buffer, and those only.  `HasInvalidNalHeader` answers as long as no H264
NAL has a reserved type; then `Convert` keeps the NALs with a valid header.  A reserved type makes it throw.
-/

namespace MwStreamer

namespace PacketConverter

open StateExcept LengthPrefix

/-! ### Headers -/

/-- The forbidden bit is clear, but the type is none of H264. -/
def reservedType : VideoCodec → List UInt8 → Bool
  | .h264, first :: _ =>
    first.toNat &&& 0x80 == 0 && (first.toNat &&& 0x1f == 0 || decide (24 ≤ first.toNat &&& 0x1f))
  | _, _ => false

/-- The header is valid. -/
def headerValid : VideoCodec → List UInt8 → Bool
  | .h264, first :: _ =>
    first.toNat &&& 0x80 == 0 && !(first.toNat &&& 0x1f == 0 || decide (24 ≤ first.toNat &&& 0x1f))
  | .h265, first :: second :: _ => first.toNat &&& 0x80 == 0 && second.toNat &&& 0x07 != 0
  | _, _ => false

/-- **`ValidNalHeader` on a NAL that is long enough.** -/
theorem validNalHeader_eq {codec : VideoCodec} {nal : List UInt8} (h : codec.minimum ≤ nal.length) :
    validNalHeader codec nal =
      if reservedType codec nal then invalidArgument "H264 NAL 类型无效" else .ok (headerValid codec nal) := by
  have hshort : ¬nal.length < codec.minimum := Nat.not_lt.mpr h
  cases codec with
  | h264 =>
    obtain ⟨first, rest, rfl⟩ : ∃ first rest, nal = first :: rest := by
      cases nal with
      | nil => cases h
      | cons first rest => exact ⟨first, rest, rfl⟩
    rw [validNalHeader, if_neg hshort]
    show (if first.toNat &&& 0x80 ≠ 0 then Except.ok false else
      if first.toNat &&& 0x1f = 0 ∨ 24 ≤ first.toNat &&& 0x1f then invalidArgument "H264 NAL 类型无效"
      else Except.ok true) = _
    by_cases hforbidden : first.toNat &&& 0x80 = 0
    · by_cases htype : first.toNat &&& 0x1f = 0 ∨ 24 ≤ first.toNat &&& 0x1f
      · simp [reservedType, hforbidden, htype]
      · have hproper := not_or.mp htype
        simp [reservedType, headerValid, hforbidden, hproper.1, hproper.2]
    · simp [reservedType, headerValid, hforbidden]
  | h265 =>
    obtain ⟨first, second, rest, rfl⟩ : ∃ first second rest, nal = first :: second :: rest := by
      cases nal with
      | nil => cases h
      | cons first rest =>
        cases rest with
        | nil => cases h with | step h => cases h
        | cons second rest => exact ⟨first, second, rest, rfl⟩
    rw [validNalHeader, if_neg hshort]
    show (if first.toNat &&& 0x80 ≠ 0 then Except.ok false else Except.ok (second.toNat &&& 0x07 != 0)) = _
    by_cases hforbidden : first.toNat &&& 0x80 = 0
    · simp [reservedType, headerValid, hforbidden]
    · simp [reservedType, headerValid, hforbidden]

/-! ### Start codes -/

/-- The bytes are at the place. -/
def StandsAt (sought buffer : List UInt8) (place : ℕ) : Prop := (buffer.drop place).take sought.length = sought

theorem standsAt_iff {buffer : List UInt8} {place : ℕ} : StandsAt [0, 0, 1] buffer place ↔
    buffer[place]? = some 0 ∧ buffer[place + 1]? = some 0 ∧ buffer[place + 2]? = some 1 := by
  have hget : ∀ i, (buffer.drop place)[i]? = buffer[place + i]? := fun i => List.getElem?_drop
  rw [StandsAt, ← Nat.add_zero place, ← hget 0, Nat.add_zero, ← hget 1, ← hget 2]
  match buffer.drop place with
  | [] => simp
  | [_] => simp
  | [_, _] => simp
  | _ :: _ :: _ :: _ => simp

theorem memfind_some {buffer sought : List UInt8} {place : ℕ} :
    memfind buffer sought = some place ↔ place + sought.length < buffer.length ∧ StandsAt sought buffer place ∧
      ∀ earlier < place, ¬StandsAt sought buffer earlier := by
  rw [memfind, List.find?_range_eq_some]
  simp only [beq_iff_eq, List.mem_range, StandsAt, Bool.not_eq_eq_eq_not, Bool.not_true, beq_eq_false_iff_ne, ne_eq]
  constructor
  · rintro ⟨hstands, hroom, hfirst⟩
    exact ⟨by omega, hstands, hfirst⟩
  · rintro ⟨hroom, hstands, hfirst⟩
    exact ⟨hstands, by omega, hfirst⟩

theorem memfind_none {buffer sought : List UInt8} :
    memfind buffer sought = none ↔ ∀ place, place + sought.length < buffer.length → ¬StandsAt sought buffer place := by
  rw [memfind, List.find?_range_eq_none]
  simp only [StandsAt, Bool.not_eq_eq_eq_not, Bool.not_true, beq_eq_false_iff_ne, ne_eq]
  constructor
  · intro h place hplace
    exact h place (by omega)
  · intro h place hplace
    exact h place (by omega)

/-- No start code in the NAL. -/
def Codeless (nal : List UInt8) : Prop := ∀ place, place + 3 ≤ nal.length → ¬StandsAt [0, 0, 1] nal place

/-- NALs that can be told apart: only behind the last is a start code not found. -/
inductive Clean : List (List UInt8) → Prop where
  | last {nal : List UInt8} (h : memfind nal [0, 0, 1] = none) : Clean [nal]
  | cons {nal : List UInt8} {nals : List (List UInt8)} (h : Codeless nal) (hnals : Clean nals) : Clean (nal :: nals)

/-- The NALs of an Annex B buffer, as `splitH264` hands them out. -/
def Enumerates (buffer : List UInt8) (nals : List (List UInt8)) : Prop :=
  prefixSize buffer ≠ 0 ∧
    ∃ spans, splitH264 buffer (prefixSize buffer) = .ok spans ∧ spans.map NalSpan.nal = nals

theorem Clean.ne_nil {nals : List (List UInt8)} (h : Clean nals) : nals ≠ [] := by
  cases h with
  | last _ => exact List.cons_ne_nil _ _
  | cons _ _ => exact List.cons_ne_nil _ _

theorem Codeless.memfind {nal : List UInt8} (h : Codeless nal) : memfind nal [0, 0, 1] = none :=
  memfind_none.mpr fun place hplace => h place (Nat.le_of_lt hplace)

/-- NALs that can be told apart still can when some are left out. -/
theorem Clean.filter {nals : List (List UInt8)} (h : Clean nals) (p : List UInt8 → Bool) (hne : nals.filter p ≠ []) :
    Clean (nals.filter p) := by
  induction h with
  | @last nal hnone =>
    by_cases hp : p nal = true
    · rw [List.filter_cons_of_pos hp, List.filter_nil]
      exact .last hnone
    · rw [List.filter_cons_of_neg hp, List.filter_nil] at hne
      exact absurd rfl hne
  | @cons nal nals hcodeless _ ih =>
    by_cases hp : p nal = true
    · rw [List.filter_cons_of_pos hp]
      by_cases hrest : nals.filter p = []
      · rw [hrest]
        exact .last hcodeless.memfind
      · exact .cons hcodeless (ih hrest)
    · rw [List.filter_cons_of_neg hp] at hne ⊢
      exact ih hne

/-! ### What `splitH264` finds -/

/-- The NAL of a span that ends at a place. -/
theorem nal_of_span {data : List UInt8} {start nalPrefix : ℕ} (hlead : nalPrefix ≤ start) (finish : ℕ) :
    NalSpan.nal ⟨(data.drop (start - nalPrefix)).take (finish + nalPrefix - start), nalPrefix⟩ =
      (data.drop start).take (finish - start) := by
  show ((data.drop (start - nalPrefix)).take (finish + nalPrefix - start)).drop nalPrefix = _
  have hbegin : start - nalPrefix + nalPrefix = start := Nat.sub_add_cancel hlead
  have hlength : finish + nalPrefix - start - nalPrefix = finish - start := by omega
  rw [List.drop_take, List.drop_drop, hbegin, hlength]

theorem nal_of_last {data : List UInt8} {start nalPrefix : ℕ} (hlead : nalPrefix ≤ start) :
    NalSpan.nal ⟨data.drop (start - nalPrefix), nalPrefix⟩ = data.drop start := by
  show (data.drop (start - nalPrefix)).drop nalPrefix = _
  rw [List.drop_drop, Nat.sub_add_cancel hlead]

/-- A place in the beginning of a buffer. -/
theorem standsAt_take {sought buffer : List UInt8} {place length : ℕ} (h : place + sought.length ≤ length) :
    StandsAt sought (buffer.take length) place ↔ StandsAt sought buffer place := by
  rw [StandsAt, StandsAt, List.drop_take, List.take_take, Nat.min_eq_left (by omega)]

/-- **`splitH264` always ends**, with NALs that can be told apart. -/
theorem splitFrom_clean {data : List UInt8} {turns start nalPrefix : ℕ} (hturns : data.length - start < turns)
    (hstart : 0 < start) (hlead : nalPrefix ≤ start) (hcode : 3 ≤ nalPrefix) :
    ∃ spans, splitFrom data turns start nalPrefix = .ok spans ∧ Clean (spans.map NalSpan.nal) := by
  induction turns generalizing start nalPrefix with
  | zero => cases hturns
  | succ turns ih =>
    rw [splitFrom]
    cases hfound : memfind (data.drop start) [0, 0, 1] with
    | none =>
      refine ⟨_, rfl, ?_⟩
      rw [List.map_singleton, nal_of_last hlead]
      exact .last hfound
    | some found =>
      obtain ⟨hroom, hstands, hfirst⟩ := memfind_some.mp hfound
      rw [List.length_drop] at hroom
      have hinside : start + found - 1 < data.length := by
        have hthree : ([0, 0, 1] : List UInt8).length = 3 := rfl
        omega
      have hthree : ([0, 0, 1] : List UInt8).length = 3 := rfl
      have hcodeless : ∀ finish, finish ≤ start + found → Codeless ((data.drop start).take (finish - start)) := by
        intro finish hfinish place hplace
        rw [List.length_take, List.length_drop] at hplace
        rw [standsAt_take (by omega)]
        exact hfirst place (by omega)
      show ∃ spans, (byteAt data (start + found - 1) >>= _) = .ok spans ∧ _
      rw [byteAt_ok hinside]
      show ∃ spans, (splitFrom data turns ((if data[start + found - 1] = 0 then start + found - 1 else start + found) +
        if data[start + found - 1] = 0 then 4 else 3) (if data[start + found - 1] = 0 then 4 else 3) >>= _) = _ ∧ _
      split
      · obtain ⟨later, hlater, hclean⟩ := @ih (start + found - 1 + 4) 4 (by omega) (by omega) (by omega) (by omega)
        rw [hlater]
        refine ⟨_, rfl, ?_⟩
        rw [List.map_cons, nal_of_span hlead]
        exact .cons (hcodeless _ (by omega)) hclean
      · obtain ⟨later, hlater, hclean⟩ := @ih (start + found + 3) 3 (by omega) (by omega) (by omega) (by omega)
        rw [hlater]
        refine ⟨_, rfl, ?_⟩
        rw [List.map_cons, nal_of_span hlead]
        exact .cons (hcodeless _ (by omega)) hclean

theorem prefixSize_cases (buffer : List UInt8) :
    prefixSize buffer = 0 ∨ prefixSize buffer = 3 ∨ prefixSize buffer = 4 := by
  rw [prefixSize.eq_def]
  split
  · split
    · exact .inl rfl
    · split
      · exact .inr (.inr rfl)
      · split
        · exact .inr (.inl rfl)
        · exact .inl rfl
  · exact .inl rfl

theorem Enumerates.clean {buffer : List UInt8} {nals : List (List UInt8)} (h : Enumerates buffer nals) :
    Clean nals := by
  obtain ⟨hlead, spans, hspans, rfl⟩ := h
  have hcode : 3 ≤ prefixSize buffer := by
    have hcases := prefixSize_cases buffer
    omega
  obtain ⟨found, hfound, hclean⟩ := @splitFrom_clean buffer (buffer.length + 1) (prefixSize buffer) (prefixSize buffer)
    (by omega) (by omega) (le_refl _) hcode
  rw [splitH264, hfound] at hspans
  rw [← Except.ok.inj hspans]
  exact hclean

/-- The first start code behind a NAL. -/
theorem memfind_annexB {nal next : List UInt8} {nals : List (List UInt8)} (h : Codeless nal) (hnext : next ≠ []) :
    memfind (nal ++ annexB (next :: nals)) [0, 0, 1] = some (nal.length + 1) := by
  have hannex : annexB (next :: nals) = 0 :: 0 :: 0 :: 1 :: (next ++ annexB nals) := rfl
  have hpos : 0 < next.length := List.length_pos_of_ne_nil hnext
  have hbehind : ∀ i, (nal ++ annexB (next :: nals))[nal.length + i]? = (annexB (next :: nals))[i]? := by
    intro i
    rw [List.getElem?_append_right (by omega), Nat.add_sub_cancel_left]
  rw [memfind_some]
  refine ⟨?_, standsAt_iff.mpr ⟨hbehind 1, hbehind 2, hbehind 3⟩, fun place hplace hstands => ?_⟩
  · rw [hannex]
    simp only [List.length_append, List.length_cons, List.length_nil]
    omega
  · obtain ⟨hzero, hone, htwo⟩ := standsAt_iff.mp hstands
    by_cases hinside : place + 3 ≤ nal.length
    · rw [List.getElem?_append_left (by omega)] at hzero hone htwo
      exact h place hinside (standsAt_iff.mpr ⟨hzero, hone, htwo⟩)
    · -- The third byte is one of the zeros of the start code.
      obtain ⟨i, hi, hsmall⟩ : ∃ i, place + 2 = nal.length + i ∧ i < 3 := ⟨place + 2 - nal.length, by omega, by omega⟩
      rw [hi, hbehind, hannex] at htwo
      obtain rfl | rfl | rfl : i = 0 ∨ i = 1 ∨ i = 2 := by omega
      · cases htwo
      · cases htwo
      · cases htwo

/-- **`splitH264` finds the NALs** of an Annex B buffer with start codes of four bytes. -/
theorem splitFrom_annexB {nals : List (List UInt8)} (h : Clean nals) (hne : ∀ nal ∈ nals, nal ≠ [])
    {before nal : List UInt8} {later : List (List UInt8)} (hnals : nals = nal :: later) {turns : ℕ}
    (hturns : (nal ++ annexB later).length < turns) (hbefore : 4 ≤ before.length) :
    ∃ spans, splitFrom (before ++ (nal ++ annexB later)) turns before.length 4 = .ok spans ∧
      spans.map NalSpan.nal = nals := by
  induction h generalizing before nal later turns with
  | @last only hnone =>
    obtain ⟨rfl, rfl⟩ := List.cons.inj hnals
    obtain ⟨turns, rfl⟩ : ∃ n, turns = n + 1 := ⟨turns - 1, by omega⟩
    have hdrop : (before ++ (only ++ annexB [])).drop before.length = only := by
      rw [List.drop_left' rfl]
      exact List.append_nil only
    rw [splitFrom, hdrop, hnone]
    refine ⟨_, rfl, ?_⟩
    rw [List.map_singleton, nal_of_last hbefore, hdrop]
  | @cons first nals hcodeless hclean ih =>
    obtain ⟨rfl, rfl⟩ := List.cons.inj hnals
    obtain ⟨turns, rfl⟩ : ∃ n, turns = n + 1 := ⟨turns - 1, by omega⟩
    obtain ⟨next, rest, rfl⟩ := List.exists_cons_of_ne_nil hclean.ne_nil
    have hnext : next ≠ [] := hne next (List.mem_cons_of_mem _ List.mem_cons_self)
    have hdrop : (before ++ (first ++ annexB (next :: rest))).drop before.length = first ++ annexB (next :: rest) :=
      List.drop_left' rfl
    have hannex : annexB (next :: rest) = 0 :: 0 :: 0 :: 1 :: (next ++ annexB rest) := rfl
    have hlength : (annexB (next :: rest)).length = 4 + (next ++ annexB rest).length := by
      rw [hannex]
      simp only [List.length_cons]
      omega
    rw [List.length_append, hlength] at hturns
    have hbyte : byteAt (before ++ (first ++ annexB (next :: rest)))
        (before.length + (first.length + 1) - 1) = .ok 0 := by
      rw [byteAt, show before.length + (first.length + 1) - 1 = before.length + (first.length + 0) by omega,
        List.getElem?_append_right (by omega), Nat.add_sub_cancel_left, List.getElem?_append_right (by omega),
        Nat.add_sub_cancel_left]
      rfl
    have hwhole : before ++ (first ++ annexB (next :: rest)) =
        (before ++ first ++ startCode) ++ (next ++ annexB rest) := by
      rw [hannex, List.append_assoc, List.append_assoc]
      rfl
    have hstart : before.length + (first.length + 1) - 1 + 4 = (before ++ first ++ startCode).length := by
      rw [List.length_append, List.length_append]
      show _ = before.length + first.length + 4
      omega
    obtain ⟨spans, hspans, hmap⟩ := @ih (fun nal hnal => hne nal (List.mem_cons_of_mem _ hnal))
      (before ++ first ++ startCode) next rest rfl turns (by omega)
      (by rw [List.length_append, List.length_append]; omega)
    rw [splitFrom, hdrop, memfind_annexB hcodeless hnext]
    show ∃ spans, (byteAt _ (before.length + (first.length + 1) - 1) >>= _) = .ok spans ∧ _
    rw [hbyte]
    show ∃ spans, (splitFrom _ turns (before.length + (first.length + 1) - 1 + 4) 4 >>= _) = .ok spans ∧ _
    rw [hstart, hwhole, hspans]
    refine ⟨_, rfl, ?_⟩
    rw [List.map_cons, hmap]
    congr 1
    refine (nal_of_span hbefore (before.length + (first.length + 1) - 1)).trans ?_
    rw [← hwhole, hdrop]
    exact List.take_left' (by omega)

theorem enumerates_annexB {nals : List (List UInt8)} (h : Clean nals) (hne : ∀ nal ∈ nals, nal ≠ []) :
    Enumerates (annexB nals) nals := by
  obtain ⟨nal, later, rfl⟩ := List.exists_cons_of_ne_nil h.ne_nil
  have hannex : annexB (nal :: later) = startCode ++ (nal ++ annexB later) := rfl
  have hlead : prefixSize (annexB (nal :: later)) = 4 := rfl
  have hlength : (annexB (nal :: later)).length = 4 + (nal ++ annexB later).length := by
    rw [hannex, List.length_append]
    rfl
  refine ⟨by rw [hlead]; decide, ?_⟩
  rw [hlead, splitH264]
  exact @splitFrom_annexB _ h hne startCode nal later rfl _ (by rw [hlength]; omega) (le_refl _)

/-! ### `HasInvalidNalHeader` -/

/-- The NALs with a valid header. -/
def validNals (codec : VideoCodec) (nals : List (List UInt8)) : List (List UInt8) := nals.filter (headerValid codec)

variable {codec : VideoCodec} {nals : List (List UInt8)}

/-- The callback on one NAL after the other. -/
theorem foldlM_valid {spans : List NalSpan} (hmin : ∀ span ∈ spans, codec.minimum ≤ span.nal.length) (invalid : Bool) :
    spans.foldlM (fun invalid span => do
        let valid ← validNalHeader codec span.nal
        return invalid || !valid) invalid =
      if spans.any (fun span => reservedType codec span.nal) then
        (invalidArgument "H264 NAL 类型无效" : Except Fault Bool)
      else .ok (invalid || spans.any fun span => !headerValid codec span.nal) := by
  induction spans generalizing invalid with
  | nil =>
    show Except.ok invalid = Except.ok (invalid || false)
    rw [Bool.or_false]
  | cons span spans ih =>
    have hlater := ih fun other hother => hmin other (List.mem_cons_of_mem _ hother)
    rw [List.foldlM_cons, validNalHeader_eq (hmin span List.mem_cons_self), List.any_cons, List.any_cons]
    cases reservedType codec span.nal with
    | true => rfl
    | false =>
      show List.foldlM _ (invalid || !headerValid codec span.nal) spans = _
      rw [hlater, Bool.or_assoc]
      rfl

/-- **`HasInvalidNalHeader`** throws on a reserved type, and otherwise tells whether a header is invalid. -/
theorem hasInvalidNalHeader_eq {buffer : List UInt8} (h : Enumerates buffer nals)
    (hmin : ∀ nal ∈ nals, codec.minimum ≤ nal.length) : hasInvalidNalHeader codec buffer =
      if nals.any (reservedType codec) then invalidArgument "H264 NAL 类型无效"
      else .ok (nals.any fun nal => !headerValid codec nal) := by
  obtain ⟨hlead, spans, hspans, rfl⟩ := h
  have hspan : ∀ span ∈ spans, codec.minimum ≤ span.nal.length :=
    fun span hspan => hmin _ (List.mem_map_of_mem hspan)
  rw [hasInvalidNalHeader, if_neg hlead, hspans, List.any_map, List.any_map]
  show List.foldlM _ false spans = _
  rw [foldlM_valid hspan, Bool.false_or]
  rfl

theorem validNals_eq_self (h : nals.any (fun nal => !headerValid codec nal) = false) :
    validNals codec nals = nals := by
  rw [validNals, List.filter_eq_self]
  intro nal hnal
  have hvalid := List.any_eq_false.mp h nal hnal
  rwa [Bool.not_eq_true', Bool.not_eq_false] at hvalid

/-! ### Convert -/

/-- `filter_units` keeps the NALs with a valid header, in order, and puts out nothing if there is none. -/
def KeepsValid [FilterUnits] : Prop := ∀ (codec : VideoCodec) (buffer : List UInt8) (nals : List (List UInt8)),
  Enumerates buffer nals → (∀ nal ∈ nals, codec.minimum ≤ nal.length ∧ reservedType codec nal = false) →
    ∃ answer, FilterUnits.receivePacket codec buffer = .ok answer ∧ (answer = none ↔ validNals codec nals = []) ∧
      ∀ bytes, answer = some bytes → Enumerates bytes (validNals codec nals)

/-- A structurally complete packet of these NALs, framed by lengths or in Annex B, that `splitH264` enumerates. -/
structure Complete (codec : VideoCodec) (width : ℕ) (data : List UInt8) (nals : List (List UInt8)) : Prop where
  long : ∀ nal ∈ nals, codec.minimum ≤ nal.length
  framed : (1 ≤ width ∧ FramesOf codec width nals data ∧ Enumerates (annexB nals) nals) ∨
    ((∀ others, ¬FramesOf codec width others data) ∧ Enumerates data nals)

/-- The packet is filtered: nothing is thrown, the frame has the NALs with a valid header in order, there is no
frame only if there is no such NAL, and the packet, like every other buffer, stays as it was. -/
def Filtered (valid : List (List UInt8)) (memory : Memory) :
    EStateM.Result Fault Memory (Option VideoFrame) → Prop
  | .error _ _ => False
  | .ok answer memory' => memory <+: memory' ∧ (answer = none ↔ valid = []) ∧
      ∀ frame, answer = some frame → ∃ bytes, memory'[frame.buffer]? = some bytes ∧ Enumerates bytes valid

theorem Enumerates.ne_nil {buffer : List UInt8} (h : Enumerates buffer nals) : nals ≠ [] := h.clean.ne_nil

variable {memory memory' : Memory} {buffer : ℕ} {bytes : List UInt8}

theorem getElem?_allocated (bytes : List UInt8) (memory : Memory) : (memory ++ [bytes])[memory.length]? = some bytes :=
  List.getElem?_concat_length

/-- The next step of a program whose first step is known. -/
theorem bind_eq {α β : Type} {x : Run α} {f : α → Run β} {a : α} (h : x memory = .ok a memory') :
    (x >>= f) memory = f a memory' := by
  show EStateM.bind x f memory = _
  rw [EStateM.bind, h]

theorem load_eq (h : memory[buffer]? = some bytes) : load buffer memory = .ok bytes memory := by
  have hget : (get : Run Memory) memory = .ok memory memory := rfl
  rw [load, bind_eq hget, h]
  rfl

theorem attempt_ok {α : Type} {x : Except Fault α} {a : α} (h : x = .ok a) :
    (attempt x : Run α) memory = .ok a memory := by
  rw [h]
  rfl

theorem attempt_error {α : Type} {x : Except Fault α} {f : Fault} (h : x = .error f) :
    (attempt x : Run α) memory = .error f memory := by
  rw [h]
  rfl

/-- A program whose first step throws. -/
theorem bind_error {α β : Type} {x : Run α} {g : α → Run β} {f : Fault} (h : x memory = .error f memory') :
    (x >>= g) memory = .error f memory' := by
  show EStateM.bind x g memory = _
  rw [EStateM.bind, h]

/-- **`Convert` brings a buffer into Annex B** as `toAnnexB` brings its bytes: it throws the same, or finds them in a
buffer, that of the packet itself or a new one. -/
theorem annexBuffer_eq (stream : VideoStream) (hdata : memory[buffer]? = some bytes) :
    (∀ f, toAnnexB stream.codec stream.nalLengthSize bytes = .error f →
      annexBuffer stream buffer memory = .error f memory) ∧
    ∀ annexed, toAnnexB stream.codec stream.nalLengthSize bytes = .ok annexed →
      ∃ place memory', annexBuffer stream buffer memory = .ok place memory' ∧ memory <+: memory' ∧
        memory'[place]? = some annexed := by
  rw [toAnnexB, annexBuffer, bind_eq (load_eq hdata)]
  cases hrecognised : lengthPrefixed stream.codec bytes stream.nalLengthSize with
  | error f =>
    rw [bind_error (attempt_error rfl)]
    exact ⟨fun f' h => Except.error.inj h ▸ rfl, fun annexed h => by cases h⟩
  | ok recognised =>
    rw [bind_eq (attempt_ok rfl)]
    show (∀ f, (if (recognised || prefixSize bytes == 0) = true then _ else _) = _ →
        (if (recognised || prefixSize bytes == 0) = true then _ else _ : Run ℕ) memory = _) ∧
      ∀ annexed, (if (recognised || prefixSize bytes == 0) = true then _ else _) = _ →
        ∃ place memory', (if (recognised || prefixSize bytes == 0) = true then _ else _ : Run ℕ) memory = _ ∧ _
    by_cases hrewritten : (recognised || prefixSize bytes == 0) = true
    · simp only [if_pos hrewritten]
      by_cases hzero : stream.nalLengthSize = 0
      · simp only [if_pos hzero]
        exact ⟨fun f h => Except.error.inj h ▸ rfl, fun annexed h => by cases h⟩
      · simp only [if_neg hzero]
        cases hloop : appendNals stream.codec bytes stream.nalLengthSize bytes.length ([], 0) with
        | error f =>
          refine ⟨fun f' h => ?_, fun annexed h => by cases h⟩
          obtain rfl := Except.error.inj h
          exact bind_error (attempt_error rfl)
        | ok next =>
          refine ⟨fun f h => (by cases h), fun annexed h => ?_⟩
          obtain rfl := Except.ok.inj h
          exact ⟨memory.length, memory ++ [next.1], bind_eq (attempt_ok rfl), List.prefix_append _ _,
            getElem?_allocated _ _⟩
    · simp only [if_neg hrewritten]
      refine ⟨fun f h => (by cases h), fun annexed h => ?_⟩
      obtain rfl := Except.ok.inj h
      exact ⟨buffer, memory, rfl, List.prefix_refl _, hdata⟩

/-- The bytes in Annex B have the NALs of the packet. -/
theorem toAnnexB_complete {width : ℕ} (hwidth : width ≤ 4) (hcomplete : Complete codec width bytes nals) :
    ∃ found, toAnnexB codec width bytes = .ok found ∧ Enumerates found nals := by
  rcases hcomplete.framed with ⟨hpos, hframes, henumerates⟩ | ⟨hplain, henumerates⟩
  · obtain ⟨b, hb, hiff⟩ := @lengthPrefixed_eq codec bytes width hpos hwidth
    rw [hiff.mpr ⟨nals, hframes⟩] at hb
    have hloop := (appendNals_all hwidth).mpr ⟨nals, hframes, rfl⟩
    refine ⟨annexB nals, ?_, henumerates⟩
    rw [toAnnexB, hb]
    show (if width = 0 then _ else _) = _
    rw [if_neg (by omega), hloop]
    rfl
  · have hb : lengthPrefixed codec bytes width = .ok false := by
      by_cases hzero : width = 0
      · rw [lengthPrefixed, if_pos hzero]
      · obtain ⟨b, hb, hiff⟩ := @lengthPrefixed_eq codec bytes width (by omega) hwidth
        cases b with
        | false => exact hb
        | true =>
          obtain ⟨others, hothers⟩ := hiff.mp rfl
          exact absurd hothers (hplain others)
    have hcode : (false || prefixSize bytes == 0) = false := by
      rw [Bool.false_or, beq_eq_false_iff_ne]
      exact henumerates.1
    refine ⟨bytes, ?_, henumerates⟩
    rw [toAnnexB, hb]
    show (if (false || prefixSize bytes == 0) = true then _ else _) = _
    rw [hcode]
    rfl

/-- **The buffer in Annex B** holds the NALs of the packet. -/
theorem annexBuffer_complete {stream : VideoStream} (hwidth : stream.nalLengthSize ≤ 4)
    (hdata : memory[buffer]? = some bytes) (hcomplete : Complete stream.codec stream.nalLengthSize bytes nals) :
    ∃ annexed memory' found, annexBuffer stream buffer memory = .ok annexed memory' ∧ memory <+: memory' ∧
      memory'[annexed]? = some found ∧ Enumerates found nals := by
  obtain ⟨found, hannexed, henumerates⟩ := toAnnexB_complete hwidth hcomplete
  obtain ⟨place, memory', hrun, hkept, hfound⟩ := (annexBuffer_eq stream hdata).2 found hannexed
  exact ⟨place, memory', found, hrun, hkept, hfound, henumerates⟩

/-- A packet the converter knows: its stream, its time base and its bytes. -/
structure Accepted [Libav] (streams : List VideoStream) (memory : Memory) (packet : Packet) (stream : VideoStream)
    (data : List UInt8) : Prop where
  found : (streams.find? fun stream => stream.index == packet.streamIndex) = some stream
  positive : packet.timeBase.Positive
  timeBase : avCmpQ packet.timeBase stream.timeBase = 0
  width : stream.nalLengthSize ≤ 4
  data : memory[packet.buffer]? = some data

theorem convert_accepted [Libav] [FilterUnits] {streams : List VideoStream} {packet : Packet} {stream : VideoStream}
    {data : List UInt8} (h : Accepted streams memory packet stream data) (hne : data ≠ []) (dtsMs ptsMs : ℕ) :
    convert streams packet dtsMs ptsMs memory = (do
      let buffer ← annexBuffer stream packet.buffer
      let data ← load buffer
      let invalid ← attempt (hasInvalidNalHeader stream.codec data)
      if invalid then
        match ← filterInvalidNals stream.codec buffer with
        | none => return none
        | some buffer => return some (makeFrame stream buffer dtsMs ptsMs)
      else return some (makeFrame stream buffer dtsMs ptsMs) : Run (Option VideoFrame)) memory := by
  have hdata : ((memory[packet.buffer]?.getD []).isEmpty) = false := by
    rw [h.data]
    exact List.isEmpty_eq_false_iff.mpr hne
  have htime : ¬(packet.timeBase.num ≤ 0 ∨ packet.timeBase.den ≤ 0 ∨ avCmpQ packet.timeBase stream.timeBase ≠ 0) := by
    rintro (hnum | hden | hcmp)
    · exact absurd h.positive.1 (Int.not_lt.mpr hnum)
    · exact absurd h.positive.2 (Int.not_lt.mpr hden)
    · exact hcmp h.timeBase
  unfold convert
  show (if (memory[packet.buffer]?.getD []).isEmpty = true then _ else _ : Run (Option VideoFrame)) memory = _
  rw [hdata, if_neg Bool.false_ne_true, h.found]
  show (if (packet.timeBase.num ≤ 0 ∨ packet.timeBase.den ≤ 0 ∨ avCmpQ packet.timeBase stream.timeBase ≠ 0) then _
    else _ : Run (Option VideoFrame)) memory = _
  exact congrFun (if_neg htime) memory

theorem filterInvalidNals_none [FilterUnits] (hdata : memory[buffer]? = some bytes)
    (h : FilterUnits.receivePacket codec bytes = .ok none) :
    filterInvalidNals codec buffer memory = .ok none memory := by
  rw [filterInvalidNals, bind_eq (load_eq hdata), h]
  rfl

theorem filterInvalidNals_some [FilterUnits] {filtered : List UInt8} (hdata : memory[buffer]? = some bytes)
    (h : FilterUnits.receivePacket codec bytes = .ok (some filtered)) :
    filterInvalidNals codec buffer memory = .ok (some memory.length) (memory ++ [filtered]) := by
  rw [filterInvalidNals, bind_eq (load_eq hdata), h]
  rfl

theorem Complete.ne_nil {width : ℕ} (h : Complete codec width bytes nals) : bytes ≠ [] := by
  rintro rfl
  rcases h.framed with ⟨-, hframes, henumerates⟩ | ⟨hplain, -⟩
  · exact henumerates.ne_nil (framesOf_empty.mp hframes)
  · exact hplain [] framesOf_nil

/-- **Invalid NAL headers are filtered, unless a type is reserved.**  `Convert` turns a structurally complete packet
into a frame of just its NALs with a valid header, or into nothing if there is none, and touches no buffer, if and
only if none of the packet's NALs has a type that H264 reserves. -/
theorem invalid_headers_filtered_iff [Libav] [FilterUnits] (hkeeps : KeepsValid) {streams : List VideoStream}
    {packet : Packet} {stream : VideoStream} {data : List UInt8}
    (haccepted : Accepted streams memory packet stream data)
    (hcomplete : Complete stream.codec stream.nalLengthSize data nals) (dtsMs ptsMs : ℕ) :
    Filtered (validNals stream.codec nals) memory (convert streams packet dtsMs ptsMs memory) ↔
      ∀ nal ∈ nals, reservedType stream.codec nal = false := by
  obtain ⟨buffer, memory', found, hbuffer, hkept, hfound, henumerates⟩ :=
    annexBuffer_complete haccepted.width haccepted.data hcomplete
  have hheaders := hasInvalidNalHeader_eq henumerates hcomplete.long
  rw [convert_accepted haccepted hcomplete.ne_nil, bind_eq hbuffer, bind_eq (load_eq hfound)]
  cases hreserved : nals.any (reservedType stream.codec) with
  | true =>
    obtain ⟨nal, hnal, htype⟩ := List.any_eq_true.mp hreserved
    rw [hreserved, if_pos rfl] at hheaders
    rw [hheaders]
    constructor
    · intro hcontra
      exact hcontra.elim
    · intro hall
      exact absurd ((hall nal hnal).symm.trans htype) (by decide)
  | false =>
    have hall : ∀ nal ∈ nals, reservedType stream.codec nal = false :=
      fun nal hnal => Bool.eq_false_iff.mpr (List.any_eq_false.mp hreserved nal hnal)
    rw [hreserved, if_neg Bool.false_ne_true] at hheaders
    refine iff_of_true ?_ hall
    rw [bind_eq (attempt_ok hheaders)]
    cases hinvalid : nals.any (fun nal => !headerValid stream.codec nal) with
    | false =>
      rw [validNals_eq_self hinvalid]
      refine ⟨hkept, ⟨fun hcontra => (by cases hcontra), fun hnil => absurd hnil henumerates.ne_nil⟩,
        fun frame hframe => ?_⟩
      obtain rfl := Option.some.inj hframe
      exact ⟨found, hfound, henumerates⟩
    | true =>
      obtain ⟨answer, hanswer, hnone, hsome⟩ :=
        hkeeps stream.codec found nals henumerates fun nal hnal => ⟨hcomplete.long nal hnal, hall nal hnal⟩
      rw [if_pos rfl]
      cases answer with
      | none =>
        rw [bind_eq (filterInvalidNals_none hfound hanswer)]
        exact ⟨hkept, ⟨fun _ => hnone.mp rfl, fun _ => rfl⟩, fun frame hframe => by cases hframe⟩
      | some filtered =>
        rw [bind_eq (filterInvalidNals_some hfound hanswer)]
        refine ⟨hkept.trans (List.prefix_append _ _), ⟨fun hcontra => (by cases hcontra), fun hnil => ?_⟩,
          fun frame hframe => ?_⟩
        · cases hnone.mpr hnil
        · obtain rfl := Option.some.inj hframe
          exact ⟨filtered, getElem?_allocated _ _, hsome filtered rfl⟩

/-! ### A reserved type -/

/-- A `filter_units` that writes the NALs it keeps with start codes of four bytes. -/
@[reducible]
def FilterUnits.reference : FilterUnits where
  receivePacket codec buffer :=
    match splitH264 buffer (prefixSize buffer) with
    | .error _ => .error (-1)
    | .ok spans =>
      let kept := validNals codec (spans.map NalSpan.nal)
      .ok (if kept = [] then none else some (annexB kept))

theorem FilterUnits.reference_keeps : @KeepsValid FilterUnits.reference := by
  intro codec buffer nals henumerates hnals
  obtain ⟨hlead, spans, hspans, rfl⟩ := id henumerates
  have hanswer : FilterUnits.reference.receivePacket codec buffer =
      .ok (if validNals codec (spans.map NalSpan.nal) = [] then none
        else some (annexB (validNals codec (spans.map NalSpan.nal)))) := by
    show (match splitH264 buffer (prefixSize buffer) with
      | .error _ => Except.error (-1)
      | .ok spans => _) = _
    rw [hspans]
  refine ⟨_, hanswer, ?_, fun bytes hbytes => ?_⟩
  · split
    · rename_i hnil
      exact iff_of_true rfl hnil
    · rename_i hne
      exact iff_of_false (by simp) hne
  · split at hbytes
    · cases hbytes
    · rename_i hne
      obtain rfl := Option.some.inj hbytes
      refine enumerates_annexB (henumerates.clean.filter _ hne) fun nal hnal => ?_
      have hlong := (hnals nal (List.mem_of_mem_filter hnal)).1
      rintro rfl
      cases codec <;> cases hlong

/-- A buffer that is not recognised is no frames. -/
theorem not_framesOf {width : ℕ} (hpos : 1 ≤ width) (hwidth : width ≤ 4)
    (h : lengthPrefixed codec bytes width = .ok false) (others : List (List UInt8)) :
    ¬FramesOf codec width others bytes := by
  intro hothers
  obtain ⟨b, hb, hiff⟩ := @lengthPrefixed_eq codec bytes width hpos hwidth
  rw [h] at hb
  obtain rfl := Except.ok.inj hb
  exact absurd (hiff.mpr ⟨others, hothers⟩) Bool.false_ne_true

section Examples

attribute [local instance] Libav.reference FilterUnits.reference

/-- The NAL in the middle has its forbidden bit set. -/
theorem invalid_headers_filtered_middle :
    Filtered [[0x65, 0x80], [0x41, 0x9a]] [[0, 0, 1, 0x65, 0x80, 0, 0, 1, 0xe5, 0x11, 0, 0, 0, 1, 0x41, 0x9a]]
      (convert [⟨4, ⟨1, 1000⟩, .h264, 4⟩] { streamIndex := 4, pts := 0, dts := 0, timeBase := ⟨1, 1000⟩ } 20 0
        [[0, 0, 1, 0x65, 0x80, 0, 0, 1, 0xe5, 0x11, 0, 0, 0, 1, 0x41, 0x9a]]) := by
  refine (@invalid_headers_filtered_iff [[0x65, 0x80], [0xe5, 0x11], [0x41, 0x9a]] _ _ _ FilterUnits.reference_keeps
    _ _ ⟨4, ⟨1, 1000⟩, .h264, 4⟩ _ ⟨rfl, by decide, rfl, by decide, rfl⟩
    ⟨by decide, .inr ⟨not_framesOf (by decide) (by decide) rfl, by decide, _, rfl, rfl⟩⟩ 20 0).mpr (by decide)

/-- A NAL of type 24 makes the conversion of its packet throw. -/
theorem reserved_type_fatal :
    @KeepsValid FilterUnits.reference ∧
    Accepted [⟨4, ⟨1, 1000⟩, .h264, 4⟩] [[0, 0, 0, 1, 0x65, 0x80, 0, 0, 0, 1, 0x18, 0x80]]
      { streamIndex := 4, pts := 0, dts := 0, timeBase := ⟨1, 1000⟩ } ⟨4, ⟨1, 1000⟩, .h264, 4⟩
      [0, 0, 0, 1, 0x65, 0x80, 0, 0, 0, 1, 0x18, 0x80] ∧
    Complete .h264 4 [0, 0, 0, 1, 0x65, 0x80, 0, 0, 0, 1, 0x18, 0x80] [[0x65, 0x80], [0x18, 0x80]] ∧
    convert [⟨4, ⟨1, 1000⟩, .h264, 4⟩] { streamIndex := 4, pts := 0, dts := 0, timeBase := ⟨1, 1000⟩ } 20 0
        [[0, 0, 0, 1, 0x65, 0x80, 0, 0, 0, 1, 0x18, 0x80]] =
      .error (.thrown (.invalidArgument "H264 NAL 类型无效")) [[0, 0, 0, 1, 0x65, 0x80, 0, 0, 0, 1, 0x18, 0x80]] :=
  ⟨FilterUnits.reference_keeps, ⟨rfl, by decide, rfl, by decide, rfl⟩,
    ⟨by decide, .inr ⟨not_framesOf (by decide) (by decide) rfl, by decide, _, rfl, rfl⟩⟩, rfl⟩

end Examples

end PacketConverter

end MwStreamer
