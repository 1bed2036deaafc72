import MwStreamer.Remuxer.PacketConverter

/-!
# Length-prefixed packets

The test `LengthPrefixed` and the loop that rewrites a packet accept the same buffers: those that are frames of
NALs, one after the other, to the last byte.  Neither reads outside the buffer, and each turn advances.
-/

namespace MwStreamer

namespace PacketConverter

open LengthPrefix

/-! ### Safe functions -/

/-- Without a result there is only one reason: the source has thrown `std::invalid_argument`. -/
def Safe {α : Type} (x : Except Fault α) : Prop := ∀ f, x = .error f → ∃ what, f = .thrown (.invalidArgument what)

theorem safe_ok {α : Type} (a : α) : Safe (.ok a) := fun _ h => by cases h

theorem safe_invalidArgument {α : Type} (what : String) : Safe (invalidArgument what : Except Fault α) :=
  fun _ h => ⟨what, (Except.error.inj h).symm⟩

theorem Safe.bind {α β : Type} {x : Except Fault α} {f : α → Except Fault β} (hx : Safe x)
    (hf : ∀ a, x = .ok a → Safe (f a)) : Safe (x >>= f) := by
  intro e h
  rcases StateExcept.bind_error h with h | ⟨a, ha, h⟩
  · exact hx e h
  · exact hf a ha e h

/-! ### Reading a length -/

/-- One more byte of a length that still fits. -/
theorem shiftIn_eq {length : ℕ} (h : length < 2 ^ 24) (byte : UInt8) :
    shiftIn length byte = length * 256 + byte.toNat := by
  have hbyte : byte.toNat < 2 ^ 8 := byte.toNat_lt
  have hor : length <<< 8 ||| byte.toNat = length * 256 + byte.toNat := by
    rw [← Nat.shiftLeft_add_eq_or_of_lt hbyte, Nat.shiftLeft_eq]
  rw [shiftIn, hor]
  omega

/-- **The loop over the bytes of a length** reads a big-endian number. -/
theorem readBytes_eq {data : List UInt8} {width offset length : ℕ} (hroom : offset + width ≤ data.length)
    (hfits : (length + 1) * 256 ^ width ≤ 2 ^ 32) :
    readBytes data width offset length =
      .ok (length * 256 ^ width + value ((data.drop offset).take width), offset + width) := by
  induction width generalizing offset length with
  | zero =>
    show Except.ok (length, offset) = .ok (length * 1 + 0, offset + 0)
    rw [Nat.mul_one, Nat.add_zero, Nat.add_zero]
  | succ width ih =>
    have hlt : offset < data.length := by omega
    have hbyte : byteAt data offset = .ok data[offset] := by
      rw [byteAt, List.getElem?_eq_getElem hlt]
    have hhead : data.drop offset = data[offset] :: data.drop (offset + 1) := List.drop_eq_getElem_cons hlt
    have hpos : 0 < 256 ^ width := Nat.pow_pos (by omega)
    rw [pow_succ] at hfits
    have hsmall : length < 2 ^ 24 := by nlinarith
    have hbound : data[offset].toNat < 256 := data[offset].toNat_lt
    have hnext : (length * 256 + data[offset].toNat + 1) * 256 ^ width ≤ 2 ^ 32 := by nlinarith
    have hrest : ((data.drop (offset + 1)).take width).length = width := by
      apply List.length_take_of_le
      rw [List.length_drop]
      omega
    calc readBytes data (width + 1) offset length
        = readBytes data width (offset + 1) (shiftIn length data[offset]) := by
          rw [readBytes, hbyte]
          rfl
      _ = .ok ((length * 256 + data[offset].toNat) * 256 ^ width +
            value ((data.drop (offset + 1)).take width), offset + 1 + width) := by
          rw [shiftIn_eq hsmall, ih (by omega) hnext]
      _ = .ok (length * 256 ^ (width + 1) + value ((data.drop offset).take (width + 1)), offset + (width + 1)) := by
          rw [hhead, List.take_succ_cons, value_cons, hrest, pow_succ]
          congr 2
          · ring
          · omega

/-- The length before a NAL, wherever there is room for it. -/
theorem readBytes_length {data : List UInt8} {width offset : ℕ} (hwidth : width ≤ 4)
    (hroom : offset + width ≤ data.length) :
    readBytes data width offset 0 = .ok (value ((data.drop offset).take width), offset + width) := by
  have hpow : 256 ^ width ≤ 256 ^ 4 := Nat.pow_le_pow_right (by omega) hwidth
  rw [readBytes_eq hroom (by omega), Nat.zero_mul, Nat.zero_add]

/-! ### One NAL -/

/-- A NAL that a loop may find. -/
def Fits (codec : VideoCodec) (width : ℕ) (nal : List UInt8) : Prop :=
  codec.minimum ≤ nal.length ∧ nal.length < 256 ^ width

instance (codec : VideoCodec) (width : ℕ) (nal : List UInt8) : Decidable (Fits codec width nal) :=
  inferInstanceAs (Decidable (_ ∧ _))

theorem Fits.ne_nil {codec : VideoCodec} {width : ℕ} {nal : List UInt8} (h : Fits codec width nal) : nal ≠ [] := by
  rintro rfl
  have hmin : codec.minimum ≤ 0 := h.1
  cases codec <;> simp [VideoCodec.minimum] at hmin

/-- NALs in Annex B. -/
def annexB (nals : List (List UInt8)) : List UInt8 := nals.flatMap fun nal => startCode ++ nal

theorem annexB_append (left right : List (List UInt8)) : annexB (left ++ right) = annexB left ++ annexB right :=
  List.flatMap_append

variable {codec : VideoCodec} {data : List UInt8} {width offset : ℕ}

/-- What is split off at an offset. -/
theorem split_at {nal rest : List UInt8} (h : split width (data.drop offset) = some (nal, rest))
    (hoffset : offset ≤ data.length) :
    offset + width + nal.length ≤ data.length ∧ value ((data.drop offset).take width) = nal.length ∧
      (data.drop (offset + width)).take nal.length = nal ∧ data.drop (offset + width + nal.length) = rest := by
  rw [split] at h
  split at h
  · rename_i hguard
    rw [List.length_drop] at hguard
    obtain ⟨rfl, rfl⟩ := Prod.mk.inj (Option.some.inj h)
    have hlength : (((data.drop offset).drop width).take (value ((data.drop offset).take width))).length
        = value ((data.drop offset).take width) := by
      apply List.length_take_of_le
      rw [List.length_drop, List.length_drop]
      exact hguard.2
    rw [hlength]
    refine ⟨by omega, rfl, ?_, ?_⟩
    · rw [List.drop_drop]
    · rw [List.drop_drop, List.drop_drop, Nat.add_assoc]
  · cases h

/-- Without a frame at the offset there is no length, or too little after it. -/
theorem split_none (h : split width (data.drop offset) = none) :
    data.length - offset < width ∨
      data.length - (offset + width) < value ((data.drop offset).take width) := by
  rw [split] at h
  split at h
  · cases h
  · rename_i hguard
    rw [List.length_drop] at hguard
    omega

/-- **One turn of `LengthPrefixed`** skips the frame at the offset, if it is one. -/
theorem skipNal_eq (hwidth : width ≤ 4) (hoffset : offset ≤ data.length) :
    skipNal codec data width offset =
      .ok ((split width (data.drop offset)).bind fun found =>
        if codec.minimum ≤ found.1.length then some (offset + width + found.1.length) else none) := by
  cases hsplit : split width (data.drop offset) with
  | none =>
    rw [skipNal, Option.bind_none]
    by_cases hshort : data.length - offset < width
    · rw [if_pos hshort]
    · rw [if_neg hshort, readBytes_length hwidth (by omega)]
      have hlong := (split_none hsplit).resolve_left hshort
      exact if_pos (.inr hlong)
  | some found =>
    obtain ⟨nal, rest⟩ := found
    obtain ⟨hroom, hvalue, -, -⟩ := split_at hsplit hoffset
    rw [skipNal, if_neg (by omega), readBytes_length hwidth (by omega), hvalue, Option.bind_some]
    by_cases hmin : codec.minimum ≤ nal.length
    · rw [if_pos hmin]
      exact if_neg (by omega)
    · rw [if_neg hmin]
      exact if_pos (.inl (by omega))

/-- **`AppendNal`** appends the frame at the offset, if it is one. -/
theorem appendNal_eq (hwidth : width ≤ 4) (hoffset : offset ≤ data.length) (validateHeader : Bool)
    (output : List UInt8) :
    ∃ what, appendNal codec data width validateHeader (output, offset) =
      match split width (data.drop offset) with
      | none => invalidArgument what
      | some (nal, _) =>
        if codec.minimum ≤ nal.length then do
          if validateHeader then validateNal codec nal
          return (output ++ startCode ++ nal, offset + width + nal.length)
        else invalidArgument what := by
  cases hsplit : split width (data.drop offset) with
  | none =>
    by_cases hshort : data.length - offset < width
    · refine ⟨"视频 NAL 长度字段截断", ?_⟩
      rw [appendNal, readLength, if_pos hshort]
      rfl
    · refine ⟨"视频 NAL 负载截断", ?_⟩
      rw [appendNal, readLength, if_neg hshort, readBytes_length hwidth (by omega)]
      have hlong := (split_none hsplit).resolve_left hshort
      exact if_pos (.inr hlong)
  | some found =>
    obtain ⟨nal, rest⟩ := found
    obtain ⟨hroom, hvalue, htake, -⟩ := split_at hsplit hoffset
    refine ⟨"视频 NAL 负载截断", ?_⟩
    rw [appendNal, readLength, if_neg (by omega), readBytes_length hwidth (by omega), hvalue]
    by_cases hmin : codec.minimum ≤ nal.length
    · have hbytes : bytesAt data (offset + width) nal.length = .ok nal := by
        rw [bytesAt, if_pos hroom, htake]
      simp only [if_pos hmin]
      refine (if_neg (by omega)).trans ?_
      show (bytesAt data (offset + width) nal.length >>= _) = _
      rw [hbytes]
      rfl
    · simp only [if_neg hmin]
      exact if_pos (.inl (by omega))

theorem byteAt_ok (h : offset < data.length) : byteAt data offset = .ok data[offset] := by
  rw [byteAt, List.getElem?_eq_getElem h]

/-- The header is read only where the NAL is long enough. -/
theorem safe_validateNal (codec : VideoCodec) (nal : List UInt8) : Safe (validateNal codec nal) := by
  refine Safe.bind ?_ fun valid _ => ?_
  · by_cases hshort : nal.length < codec.minimum
    · rw [validNalHeader, if_pos hshort]
      exact safe_invalidArgument _
    · have hlong : 2 ≤ nal.length := by
        cases codec
        · exact Nat.not_lt.mp hshort
        · exact Nat.le_of_succ_le (Nat.not_lt.mp hshort)
      rw [validNalHeader, if_neg hshort, byteAt_ok (by omega)]
      show Safe (if nal[0].toNat &&& 0x80 ≠ 0 then Except.ok false else _)
      split
      · exact safe_ok false
      · cases codec with
        | h264 =>
          show Safe (if _ then _ else _)
          split
          · exact safe_invalidArgument _
          · exact safe_ok true
        | h265 =>
          show Safe (byteAt nal 1 >>= _)
          rw [byteAt_ok (by omega)]
          exact safe_ok _
  · cases valid
    · exact safe_invalidArgument _
    · exact safe_ok ()

theorem safe_appendNal (hwidth : width ≤ 4) (hoffset : offset ≤ data.length) (validateHeader : Bool)
    (output : List UInt8) : Safe (appendNal codec data width validateHeader (output, offset)) := by
  obtain ⟨what, heq⟩ := @appendNal_eq codec data width offset hwidth hoffset validateHeader output
  rw [heq]
  split
  · exact safe_invalidArgument what
  · split
    · cases validateHeader with
      | false => exact safe_ok _
      | true => exact (safe_validateNal codec _).bind fun _ _ => safe_ok _
    · exact safe_invalidArgument what

/-- **What `AppendNal` accepts.** -/
theorem appendNal_ok_iff (hwidth : width ≤ 4) (hoffset : offset ≤ data.length) {validateHeader : Bool}
    {output : List UInt8} {next : List UInt8 × ℕ} :
    appendNal codec data width validateHeader (output, offset) = .ok next ↔
      ∃ nal rest, split width (data.drop offset) = some (nal, rest) ∧ codec.minimum ≤ nal.length ∧
        (validateHeader = true → validateNal codec nal = .ok ()) ∧
        next = (output ++ startCode ++ nal, offset + width + nal.length) := by
  obtain ⟨what, heq⟩ := @appendNal_eq codec data width offset hwidth hoffset validateHeader output
  rw [heq]
  cases hsplit : split width (data.drop offset) with
  | none =>
    constructor
    · intro h
      cases h
    · rintro ⟨nal, rest, hsome, -⟩
      cases hsome
  | some found =>
    obtain ⟨nal, rest⟩ := found
    by_cases hmin : codec.minimum ≤ nal.length
    · simp only [if_pos hmin]
      constructor
      · intro h
        refine ⟨nal, rest, rfl, hmin, ?_, ?_⟩
        · rintro rfl
          obtain ⟨u, hu, -⟩ := StateExcept.bind_ok h
          exact hu
        · cases validateHeader with
          | false => exact (Except.ok.inj h).symm
          | true =>
            obtain ⟨u, -, h⟩ := StateExcept.bind_ok h
            exact (Except.ok.inj h).symm
      · rintro ⟨nal', rest', hsame, -, hvalid, rfl⟩
        obtain ⟨rfl, rfl⟩ := Prod.mk.inj (Option.some.inj hsame)
        cases validateHeader with
        | false => rfl
        | true =>
          rw [hvalid rfl]
          rfl
    · simp only [if_neg hmin]
      constructor
      · intro h
        cases h
      · rintro ⟨nal', rest', hsame, hmin', -⟩
        obtain ⟨rfl, rfl⟩ := Prod.mk.inj (Option.some.inj hsame)
        exact absurd hmin' hmin

/-- Each turn advances and stays inside the buffer. -/
theorem appendNal_advances (hwidth : width ≤ 4) (hoffset : offset ≤ data.length) {validateHeader : Bool}
    {output : List UInt8} {next : List UInt8 × ℕ}
    (h : appendNal codec data width validateHeader (output, offset) = .ok next) :
    offset < next.2 ∧ next.2 ≤ data.length := by
  obtain ⟨nal, rest, hsplit, hmin, -, rfl⟩ := (appendNal_ok_iff hwidth hoffset).mp h
  have hpos : 0 < codec.minimum := by cases codec <;> decide
  have hroom := (split_at hsplit hoffset).1
  exact ⟨by show offset < offset + width + nal.length; omega, hroom⟩

theorem skipNal_advances (hwidth : width ≤ 4) (hoffset : offset ≤ data.length) {next : ℕ}
    (h : skipNal codec data width offset = .ok (some next)) : offset < next ∧ next ≤ data.length := by
  rw [skipNal_eq hwidth hoffset] at h
  obtain ⟨⟨nal, rest⟩, hsplit, hnext⟩ := Option.bind_eq_some_iff.mp (Except.ok.inj h)
  have hpos : 0 < codec.minimum := by cases codec <;> decide
  have hroom := (split_at hsplit hoffset).1
  split at hnext
  · rename_i hmin
    obtain rfl := Option.some.inj hnext
    exact ⟨by show offset < offset + width + nal.length; dsimp only at hmin; omega, hroom⟩
  · cases hnext

/-! ### The loops -/

/-- The rest of the buffer is frames of NALs. -/
def FramesOf (codec : VideoCodec) (width : ℕ) (nals : List (List UInt8)) (bytes : List UInt8) : Prop :=
  bytes = frames width nals ∧ ∀ nal ∈ nals, Fits codec width nal

theorem framesOf_nil : FramesOf codec width [] [] := ⟨rfl, fun _ h => by cases h⟩

/-- The frames after the first. -/
theorem framesOf_split {bytes nal rest : List UInt8} (hsplit : split width bytes = some (nal, rest))
    (hmin : codec.minimum ≤ nal.length) {nals : List (List UInt8)} :
    FramesOf codec width (nal :: nals) bytes ↔ FramesOf codec width nals rest := by
  obtain ⟨rfl, hlt⟩ := split_some hsplit
  constructor
  · rintro ⟨hbytes, hfits⟩
    rw [frames_cons] at hbytes
    exact ⟨List.append_cancel_left hbytes, fun other hother => hfits other (List.mem_cons_of_mem _ hother)⟩
  · rintro ⟨rfl, hfits⟩
    refine ⟨(frames_cons width nal nals).symm, fun other hother => ?_⟩
    rcases List.mem_cons.mp hother with rfl | hother
    · exact ⟨hmin, hlt⟩
    · exact hfits other hother

/-- The first frame is that at the offset. -/
theorem framesOf_head {bytes : List UInt8} {nals : List (List UInt8)} (h : FramesOf codec width nals bytes)
    (hne : bytes ≠ []) : ∃ nal rest later, nals = nal :: later ∧ split width bytes = some (nal, rest) ∧
      codec.minimum ≤ nal.length := by
  cases nals with
  | nil => exact absurd h.1 hne
  | cons nal later =>
    obtain ⟨hmin, hlt⟩ := h.2 nal List.mem_cons_self
    refine ⟨nal, frames width later, later, rfl, ?_, hmin⟩
    rw [h.1, frames_cons]
    exact split_frame hlt _

/-- **What `LengthPrefixed` decides**, from any offset on. -/
theorem lengthPrefixedFrom_eq (hwidth : width ≤ 4) {turns : ℕ} (hoffset : offset ≤ data.length)
    (hturns : data.length - offset ≤ turns) :
    ∃ b, lengthPrefixedFrom codec data width turns offset = .ok b ∧
      (b = true ↔ ∃ nals, FramesOf codec width nals (data.drop offset)) := by
  induction turns generalizing offset with
  | zero =>
    have hend : offset = data.length := by omega
    refine ⟨true, ?_, fun _ => ⟨[], ?_⟩, fun _ => rfl⟩
    · rw [lengthPrefixedFrom, if_neg (by omega)]
    · rw [hend, List.drop_length]
      exact framesOf_nil
  | succ turns ih =>
    rw [lengthPrefixedFrom]
    by_cases hmore : offset < data.length
    · have hne : data.drop offset ≠ [] := by
        intro hnil
        rw [List.drop_eq_nil_iff] at hnil
        omega
      have hno : (∀ nal rest, split width (data.drop offset) = some (nal, rest) → nal.length < codec.minimum) →
          ¬∃ nals, FramesOf codec width nals (data.drop offset) := by
        rintro hshort ⟨nals, hnals⟩
        obtain ⟨nal, rest, later, -, hsplit, hmin⟩ := framesOf_head hnals hne
        have hlt := hshort nal rest hsplit
        omega
      rw [if_pos hmore, skipNal_eq hwidth hoffset]
      cases hsplit : split width (data.drop offset) with
      | none =>
        refine ⟨false, rfl, fun h => by (cases h), fun h => absurd h (hno fun nal rest hsome => ?_)⟩
        rw [hsplit] at hsome
        cases hsome
      | some found =>
        obtain ⟨nal, rest⟩ := found
        obtain ⟨hroom, -, -, hrest⟩ := split_at hsplit hoffset
        have hpos : 0 < codec.minimum := by cases codec <;> decide
        by_cases hmin : codec.minimum ≤ nal.length
        · obtain ⟨b, heq, hiff⟩ := ih hroom (by omega)
          refine ⟨b, ?_, hiff.trans ?_⟩
          · simp only [Option.bind_some, if_pos hmin]
            exact heq
          · rw [hrest]
            constructor
            · rintro ⟨nals, hnals⟩
              exact ⟨nal :: nals, (framesOf_split hsplit hmin).mpr hnals⟩
            · rintro ⟨nals, hnals⟩
              obtain ⟨first, others, later, rfl, hfirst, -⟩ := framesOf_head hnals hne
              rw [hsplit] at hfirst
              obtain ⟨rfl, rfl⟩ := Prod.mk.inj (Option.some.inj hfirst)
              exact ⟨later, (framesOf_split hsplit hmin).mp hnals⟩
        · refine ⟨false, ?_, fun h => by (cases h), fun h => absurd h (hno fun other others hother => ?_)⟩
          · simp only [Option.bind_some, if_neg hmin]
            rfl
          · rw [hsplit] at hother
            obtain ⟨rfl, rfl⟩ := Prod.mk.inj (Option.some.inj hother)
            omega
    · rw [if_neg hmore]
      have hend : offset = data.length := by omega
      refine ⟨true, rfl, fun _ => ⟨[], ?_⟩, fun _ => rfl⟩
      rw [hend, List.drop_length]
      exact framesOf_nil

/-- At the end of the buffer there are no more frames. -/
theorem framesOf_empty {nals : List (List UInt8)} : FramesOf codec width nals [] ↔ nals = [] := by
  constructor
  · intro h
    cases nals with
    | nil => rfl
    | cons nal nals =>
      have hlength := congrArg List.length h.1
      have hpos := List.length_pos_of_ne_nil (h.2 nal List.mem_cons_self).ne_nil
      rw [frames_cons, List.length_append, frame_length, List.length_nil] at hlength
      omega
  · rintro rfl
    exact framesOf_nil

/-- The loop stops at the end of the buffer. -/
theorem appendNals_end {output : List UInt8} {next : List UInt8 × ℕ} :
    (Except.ok (output, data.length) : Except Fault (List UInt8 × ℕ)) = .ok next ↔
      ∃ nals, FramesOf codec width nals (data.drop data.length) ∧ next = (output ++ annexB nals, data.length) := by
  rw [List.drop_length]
  constructor
  · intro h
    refine ⟨[], framesOf_nil, ?_⟩
    rw [← Except.ok.inj h, annexB, List.flatMap_nil, List.append_nil]
  · rintro ⟨nals, hnals, rfl⟩
    rw [framesOf_empty.mp hnals, annexB, List.flatMap_nil, List.append_nil]

/-- **What the loop of `Convert` does**, from any offset on. -/
theorem appendNals_ok_iff (hwidth : width ≤ 4) {turns : ℕ} (hoffset : offset ≤ data.length)
    (hturns : data.length - offset ≤ turns) {output : List UInt8} {next : List UInt8 × ℕ} :
    appendNals codec data width turns (output, offset) = .ok next ↔
      ∃ nals, FramesOf codec width nals (data.drop offset) ∧ next = (output ++ annexB nals, data.length) := by
  induction turns generalizing offset output with
  | zero =>
    have hend : offset = data.length := by omega
    rw [appendNals, if_neg (by show ¬offset < data.length; omega), hend]
    exact appendNals_end
  | succ turns ih =>
    rw [appendNals]
    by_cases hmore : offset < data.length
    · rw [if_pos hmore]
      have hne : data.drop offset ≠ [] := by
        intro hnil
        rw [List.drop_eq_nil_iff] at hnil
        omega
      constructor
      · intro h
        obtain ⟨⟨output', offset'⟩, hfirst, h⟩ := StateExcept.bind_ok h
        obtain ⟨hlt, hle⟩ := appendNal_advances hwidth hoffset hfirst
        dsimp only at hlt hle
        obtain ⟨nal, rest, hsplit, hmin, -, heq⟩ := (appendNal_ok_iff hwidth hoffset).mp hfirst
        obtain ⟨nals, hnals, rfl⟩ := (ih hle (by omega)).mp h
        obtain ⟨rfl, rfl⟩ := Prod.mk.inj heq
        rw [(split_at hsplit hoffset).2.2.2] at hnals
        refine ⟨nal :: nals, (framesOf_split hsplit hmin).mpr hnals, ?_⟩
        rw [annexB, annexB, List.flatMap_cons, List.append_assoc, List.append_assoc, List.append_assoc]
      · rintro ⟨nals, hnals, rfl⟩
        obtain ⟨nal, rest, later, rfl, hsplit, hmin⟩ := framesOf_head hnals hne
        have hroom := (split_at hsplit hoffset).1
        have hfirst : appendNal codec data width false (output, offset)
            = .ok (output ++ startCode ++ nal, offset + width + nal.length) :=
          (appendNal_ok_iff hwidth hoffset).mpr ⟨nal, rest, hsplit, hmin, fun h => by (cases h), rfl⟩
        have hpos : 0 < codec.minimum := by cases codec <;> decide
        have hlater : appendNals codec data width turns (output ++ startCode ++ nal, offset + width + nal.length)
            = .ok (output ++ annexB (nal :: later), data.length) := by
          refine (ih hroom (by omega)).mpr ⟨later, ?_, ?_⟩
          · rw [(split_at hsplit hoffset).2.2.2]
            exact (framesOf_split hsplit hmin).mp hnals
          · rw [annexB, annexB, List.flatMap_cons, List.append_assoc, List.append_assoc, List.append_assoc]
        rw [hfirst]
        exact hlater
    · have hend : offset = data.length := by omega
      rw [if_neg hmore, hend]
      exact appendNals_end

theorem safe_appendNals (hwidth : width ≤ 4) {turns : ℕ} (hoffset : offset ≤ data.length)
    (hturns : data.length - offset ≤ turns) (output : List UInt8) :
    Safe (appendNals codec data width turns (output, offset)) := by
  induction turns generalizing offset output with
  | zero =>
    rw [appendNals, if_neg (by show ¬offset < data.length; omega)]
    exact safe_ok _
  | succ turns ih =>
    rw [appendNals]
    by_cases hmore : offset < data.length
    · rw [if_pos hmore]
      refine (safe_appendNal hwidth hoffset false output).bind fun next hfirst => ?_
      obtain ⟨output', offset'⟩ := next
      obtain ⟨hlt, hle⟩ := appendNal_advances hwidth hoffset hfirst
      dsimp only at hlt hle
      exact ih hle (by omega) output'
    · rw [if_neg hmore]
      exact safe_ok _

/-- **`LengthPrefixed`** recognises the frames of NALs, and ends. -/
theorem lengthPrefixed_eq (hpos : 1 ≤ width) (hwidth : width ≤ 4) :
    ∃ b, lengthPrefixed codec data width = .ok b ∧ (b = true ↔ ∃ nals, FramesOf codec width nals data) := by
  rw [lengthPrefixed, if_neg (by omega)]
  exact lengthPrefixedFrom_eq hwidth (Nat.zero_le _) (Nat.sub_le _ _)

/-- **The loop of `Convert`** rewrites the frames of NALs. -/
theorem appendNals_all (hwidth : width ≤ 4) {next : List UInt8 × ℕ} :
    appendNals codec data width data.length ([], 0) = .ok next ↔
      ∃ nals, FramesOf codec width nals data ∧ next = (annexB nals, data.length) :=
  appendNals_ok_iff hwidth (Nat.zero_le _) (Nat.sub_le _ _)

/-- The start code is a NAL length of zero or one. -/
theorem startCode_not_frames (hpos : 1 ≤ width) (hwidth : width ≤ 4) (rest : List UInt8) :
    ¬∃ nals, FramesOf codec width nals (startCode ++ rest) := by
  rintro ⟨nals, hnals⟩
  obtain ⟨nal, tail, later, -, hsplit, hmin⟩ := framesOf_head hnals (List.cons_ne_nil _ _)
  obtain ⟨-, hvalue, -, -⟩ := @split_at (startCode ++ rest) width 0 nal tail hsplit (Nat.zero_le _)
  have hsmall : value ((startCode ++ rest).take width) < 2 := by
    obtain rfl | rfl | rfl | rfl : width = 1 ∨ width = 2 ∨ width = 3 ∨ width = 4 := by omega
    · exact Nat.zero_lt_two
    · exact Nat.zero_lt_two
    · exact Nat.zero_lt_two
    · exact Nat.one_lt_two
  have htwo : 2 ≤ codec.minimum := by cases codec <;> decide
  rw [List.drop_zero] at hvalue
  omega

/-- **The test and the loop agree.**  For a width of one to four, `LengthPrefixed` answers, and it recognises the
buffers that the loop of `Convert` consumes to the end; the loop otherwise throws.  Each turn of either advances
inside the buffer.  A packet that is neither recognised nor begins with a start code throws.  The loop undoes the
framing of any NALs of allowed sizes, different NALs have different frames, and the four-byte start code is never
recognised. -/
theorem framing (hpos : 1 ≤ width) (hwidth : width ≤ 4) (data : List UInt8) :
    (∃ b, lengthPrefixed codec data width = .ok b ∧
      (b = true ↔ ∃ output, appendNals codec data width data.length ([], 0) = .ok (output, data.length)) ∧
      (b = false → prefixSize data = 0 →
        ∃ what, toAnnexB codec width data = .error (.thrown (.invalidArgument what)))) ∧
    (prefixSize data = 0 → ∃ what, toAnnexB codec 0 data = .error (.thrown (.invalidArgument what))) ∧
    (∀ f, appendNals codec data width data.length ([], 0) = .error f → ∃ what, f = .thrown (.invalidArgument what)) ∧
    (∀ next, appendNals codec data width data.length ([], 0) = .ok next → next.2 = data.length) ∧
    (∀ offset ≤ data.length,
      (∀ next, skipNal codec data width offset = .ok (some next) → offset < next ∧ next ≤ data.length) ∧
      ∀ output next, appendNal codec data width false (output, offset) = .ok next →
        offset < next.2 ∧ next.2 ≤ data.length) ∧
    (∀ nals, nals ≠ [] → (∀ nal ∈ nals, Fits codec width nal) →
      appendNals codec (frames width nals) width (frames width nals).length ([], 0) =
          .ok (annexB nals, (frames width nals).length) ∧
        lengthPrefixed codec (frames width nals) width = .ok true) ∧
    (∀ left right, (∀ nal ∈ left, Fits codec width nal) → (∀ nal ∈ right, Fits codec width nal) →
      frames width left = frames width right → left = right) ∧
    ∀ rest, lengthPrefixed codec (startCode ++ rest) width = .ok false := by
  have hsafe : Safe (appendNals codec data width data.length ([], 0)) :=
    safe_appendNals hwidth (Nat.zero_le _) (Nat.sub_le _ _) []
  refine ⟨?_, ?_, hsafe, ?_, ?_, ?_, ?_, ?_⟩
  · obtain ⟨b, hb, hiff⟩ := @lengthPrefixed_eq codec data width hpos hwidth
    have hagree : b = true ↔ ∃ output, appendNals codec data width data.length ([], 0) = .ok (output, data.length) := by
      rw [hiff]
      constructor
      · rintro ⟨nals, hnals⟩
        exact ⟨annexB nals, (appendNals_all hwidth).mpr ⟨nals, hnals, rfl⟩⟩
      · rintro ⟨output, h⟩
        obtain ⟨nals, hnals, -⟩ := (appendNals_all hwidth).mp h
        exact ⟨nals, hnals⟩
    refine ⟨b, hb, hagree, fun hno hplain => ?_⟩
    cases hloop : appendNals codec data width data.length ([], 0) with
    | ok next =>
      obtain ⟨nals, hnals, rfl⟩ := (appendNals_all hwidth).mp hloop
      rw [hno] at hagree
      exact absurd (hagree.mpr ⟨annexB nals, hloop⟩) Bool.false_ne_true
    | error f =>
      obtain ⟨what, rfl⟩ := hsafe f hloop
      refine ⟨what, ?_⟩
      have htest : (b || prefixSize data == 0) = true := by
        rw [hplain, hno]
        rfl
      rw [toAnnexB, hb]
      show (if (b || prefixSize data == 0) = true then _ else _) = _
      rw [if_pos htest, if_neg (by omega), hloop]
      rfl
  · intro hplain
    refine ⟨"视频包需要 Annex B 格式或编码配置中的 NAL 长度", ?_⟩
    rw [toAnnexB, lengthPrefixed, if_pos rfl]
    show (if (false || prefixSize data == 0) = true then _ else _) = _
    rw [hplain]
    rfl
  · intro next h
    obtain ⟨nals, -, rfl⟩ := (appendNals_all hwidth).mp h
    rfl
  · intro offset hoffset
    exact ⟨fun next h => skipNal_advances hwidth hoffset h, fun output next h => appendNal_advances hwidth hoffset h⟩
  · intro nals _ hfits
    refine ⟨(appendNals_all hwidth).mpr ⟨nals, ⟨rfl, hfits⟩, rfl⟩, ?_⟩
    obtain ⟨b, hb, hiff⟩ := @lengthPrefixed_eq codec (frames width nals) width hpos hwidth
    rw [hb, hiff.mpr ⟨nals, rfl, hfits⟩]
  · intro left right hleft hright h
    exact frames_inj (fun nal hnal => ⟨(hleft nal hnal).ne_nil, (hleft nal hnal).2⟩)
      (fun nal hnal => ⟨(hright nal hnal).ne_nil, (hright nal hnal).2⟩) h
  · intro rest
    obtain ⟨b, hb, hiff⟩ := @lengthPrefixed_eq codec (startCode ++ rest) width hpos hwidth
    cases b with
    | false => exact hb
    | true => exact absurd (hiff.mp rfl) (startCode_not_frames hpos hwidth rest)

/-- Two NALs behind one-byte lengths. -/
theorem framing_two : appendNals .h264 [2, 0x65, 0x80, 3, 0x41, 0x9a, 0x01] 1 7 ([], 0) =
    .ok ([0, 0, 0, 1, 0x65, 0x80, 0, 0, 0, 1, 0x41, 0x9a, 0x01], 7) :=
  ((@framing .h264 1 (le_refl 1) (by decide) []).2.2.2.2.2.1 [[0x65, 0x80], [0x41, 0x9a, 0x01]]
    (by decide) (by decide)).1

end PacketConverter

end MwStreamer
