import MwStreamer.Remuxer.NalFraming

/-!
# Configuration records

An avcC record lists its sequence and picture parameter sets, an hvcC record any number of arrays of parameter
sets; each set is a frame with a two-byte length.  `Configuration` accepts just these records and returns the
sets they list, in order.
-/

namespace MwStreamer

namespace PacketConverter

open LengthPrefix

/-- A parameter set a record may hold. -/
def ParameterSet (codec : VideoCodec) (nal : List UInt8) : Prop :=
  Fits codec 2 nal ∧ validNalHeader codec nal = .ok true

/-- An array of an hvcC record: its type byte, and its parameter sets. -/
abbrev ParameterArray := UInt8 × List (List UInt8)

instance (codec : VideoCodec) (nal : List UInt8) : Decidable (ParameterSet codec nal) :=
  inferInstanceAs (Decidable (_ ∧ _))

def arrayBytes (array : ParameterArray) : List UInt8 :=
  array.1 :: (digits 2 array.2.length ++ frames 2 array.2)

def arraysBytes (arrays : List ParameterArray) : List UInt8 := arrays.flatMap arrayBytes

/-- The parameter sets of all arrays. -/
def parameterSets (arrays : List ParameterArray) : List (List UInt8) := arrays.flatMap Prod.snd

/-- An array of parameter sets that a count of two bytes can count. -/
def ArrayFits (codec : VideoCodec) (array : ParameterArray) : Prop :=
  array.2.length < 256 ^ 2 ∧ ∀ nal ∈ array.2, ParameterSet codec nal

/-- An avcC record; what follows the parameter sets is `trailing`. -/
def avcRecord (profile compatibility level lengthByte spsByte : UInt8) (sps : List (List UInt8)) (ppsCount : UInt8)
    (pps : List (List UInt8)) (trailing : List UInt8) : List UInt8 :=
  1 :: profile :: compatibility :: level :: lengthByte :: spsByte ::
    (frames 2 sps ++ ppsCount :: (frames 2 pps ++ trailing))

/-- An hvcC record; `general` is what stands between the version and the length byte. -/
def hevcRecord (general : List UInt8) (lengthByte arrayCount : UInt8) (arrays : List ParameterArray) : List UInt8 :=
  1 :: (general ++ lengthByte :: arrayCount :: arraysBytes arrays)

variable {codec : VideoCodec} {data : List UInt8} {offset : ℕ}

theorem validateNal_ok_iff {nal : List UInt8} :
    validateNal codec nal = .ok () ↔ validNalHeader codec nal = .ok true := by
  rw [validateNal]
  cases hvalid : validNalHeader codec nal with
  | error f =>
    constructor
    · intro h
      cases h
    · intro h
      cases h
  | ok valid =>
    cases valid with
    | true => exact ⟨fun _ => rfl, fun _ => rfl⟩
    | false =>
      constructor
      · intro h
        cases h
      · intro h
        cases h

/-! ### Counted parameter sets -/

/-- **What a counted loop accepts**: that many parameter sets at the offset. -/
theorem appendCount_ok_iff {count : ℕ} (hoffset : offset ≤ data.length) {output : List UInt8}
    {next : List UInt8 × ℕ} :
    appendCount codec data count (output, offset) = .ok next ↔
      ∃ nals rest, nals.length = count ∧ data.drop offset = frames 2 nals ++ rest ∧
        (∀ nal ∈ nals, ParameterSet codec nal) ∧
        next = (output ++ annexB nals, offset + (frames 2 nals).length) := by
  induction count generalizing offset output next with
  | zero =>
    rw [appendCount]
    constructor
    · intro h
      refine ⟨[], data.drop offset, rfl, rfl, fun _ h => by (cases h), ?_⟩
      rw [← Except.ok.inj h, annexB, List.flatMap_nil, List.append_nil]
      rfl
    · rintro ⟨nals, rest, hcount, -, -, rfl⟩
      rw [List.length_eq_zero_iff.mp hcount, annexB, List.flatMap_nil, List.append_nil]
      rfl
  | succ count ih =>
    rw [appendCount]
    constructor
    · intro h
      obtain ⟨⟨output', offset'⟩, hfirst, h⟩ := StateExcept.bind_ok h
      obtain ⟨hlt, hle⟩ := appendNal_advances (by decide) hoffset hfirst
      dsimp only at hlt hle
      obtain ⟨nal, tail, hsplit, hmin, hvalid, heq⟩ := (appendNal_ok_iff (by decide) hoffset).mp hfirst
      obtain ⟨nals, rest, hcount, hbytes, hnals, rfl⟩ := (ih hle).mp h
      obtain ⟨rfl, rfl⟩ := Prod.mk.inj heq
      obtain ⟨hframe, hfit⟩ := split_some hsplit
      rw [(split_at hsplit hoffset).2.2.2] at hbytes
      refine ⟨nal :: nals, rest, by rw [List.length_cons, hcount], ?_, fun other hother => ?_, ?_⟩
      · rw [hframe, hbytes, frames_cons, List.append_assoc]
      · rcases List.mem_cons.mp hother with rfl | hother
        · exact ⟨⟨hmin, hfit⟩, validateNal_ok_iff.mp (hvalid rfl)⟩
        · exact hnals other hother
      · rw [annexB, annexB, List.flatMap_cons, List.append_assoc, List.append_assoc, List.append_assoc, frames_cons,
          List.length_append, frame_length, Nat.add_assoc, Nat.add_assoc, Nat.add_assoc]
    · rintro ⟨nals, rest, hcount, hbytes, hnals, rfl⟩
      cases nals with
      | nil => cases hcount
      | cons nal nals =>
        obtain ⟨⟨hmin, hfit⟩, hvalid⟩ := hnals nal List.mem_cons_self
        rw [frames_cons, List.append_assoc] at hbytes
        have hsplit : split 2 (data.drop offset) = some (nal, frames 2 nals ++ rest) := by
          rw [hbytes]
          exact split_frame hfit _
        have hfirst : appendNal codec data 2 true (output, offset)
            = .ok (output ++ startCode ++ nal, offset + 2 + nal.length) :=
          (appendNal_ok_iff (by decide) hoffset).mpr
            ⟨nal, _, hsplit, hmin, fun _ => validateNal_ok_iff.mpr hvalid, rfl⟩
        obtain ⟨hroom, -, -, hrest⟩ := split_at hsplit hoffset
        have hlater := (@ih _ hroom (output ++ startCode ++ nal) _).mpr ⟨nals, rest, Nat.succ.inj hcount, hrest,
          fun other hother => hnals other (List.mem_cons_of_mem _ hother), rfl⟩
        rw [hfirst]
        refine hlater.trans ?_
        rw [annexB, annexB, List.flatMap_cons, List.append_assoc, List.append_assoc, List.append_assoc, frames_cons,
          List.length_append, frame_length, Nat.add_assoc, Nat.add_assoc, Nat.add_assoc]

/-- A counted loop stays inside the buffer. -/
theorem appendCount_le {count : ℕ} (hoffset : offset ≤ data.length) {output : List UInt8} {next : List UInt8 × ℕ}
    (h : appendCount codec data count (output, offset) = .ok next) : offset ≤ next.2 ∧ next.2 ≤ data.length := by
  obtain ⟨nals, rest, -, hbytes, -, rfl⟩ := (appendCount_ok_iff hoffset).mp h
  have hlength := congrArg List.length hbytes
  rw [List.length_drop, List.length_append] at hlength
  exact ⟨Nat.le_add_right _ _, by show offset + (frames 2 nals).length ≤ data.length; omega⟩

theorem safe_appendCount {count : ℕ} (hoffset : offset ≤ data.length) (output : List UInt8) :
    Safe (appendCount codec data count (output, offset)) := by
  induction count generalizing offset output with
  | zero => exact safe_ok _
  | succ count ih =>
    refine (safe_appendNal (by decide) hoffset true output).bind fun next hfirst => ?_
    obtain ⟨output', offset'⟩ := next
    exact ih (appendNal_advances (by decide) hoffset hfirst).2 output'

/-! ### Arrays -/

/-- The count of an array. -/
theorem readLength_two (hroom : offset + 2 ≤ data.length) :
    readLength data offset 2 = .ok (value ((data.drop offset).take 2), offset + 2) := by
  rw [readLength, if_neg (by omega)]
  exact readBytes_length (by decide) hroom

theorem safe_readLength (width offset : ℕ) (hwidth : width ≤ 4) (hoffset : offset ≤ data.length) :
    Safe (readLength data offset width) := by
  rw [readLength]
  by_cases hshort : data.length - offset < width
  · rw [if_pos hshort]
    exact safe_invalidArgument _
  · rw [if_neg hshort, readBytes_length hwidth (by omega)]
    exact safe_ok _

theorem readLength_le {width : ℕ} (hwidth : width ≤ 4) (hoffset : offset ≤ data.length) {found : ℕ × ℕ}
    (h : readLength data offset width = .ok found) :
    offset + width ≤ data.length ∧ found = (value ((data.drop offset).take width), offset + width) := by
  rw [readLength] at h
  by_cases hshort : data.length - offset < width
  · rw [if_pos hshort] at h
    cases h
  · rw [if_neg hshort, readBytes_length hwidth (by omega)] at h
    exact ⟨by omega, (Except.ok.inj h).symm⟩

theorem arraysBytes_cons (array : ParameterArray) (arrays : List ParameterArray) :
    arraysBytes (array :: arrays) = arrayBytes array ++ arraysBytes arrays := rfl

theorem parameterSets_cons (array : ParameterArray) (arrays : List ParameterArray) :
    parameterSets (array :: arrays) = array.2 ++ parameterSets arrays := rfl

theorem arraysBytes_cons_append (type : UInt8) (nals : List (List UInt8)) (arrays : List ParameterArray)
    (rest : List UInt8) :
    arraysBytes ((type, nals) :: arrays) ++ rest =
      type :: (digits 2 nals.length ++ (frames 2 nals ++ (arraysBytes arrays ++ rest))) := by
  rw [arraysBytes_cons, arrayBytes, List.cons_append, List.cons_append, List.append_assoc, List.append_assoc]

theorem arrayBytes_length (array : ParameterArray) :
    (arrayBytes array).length = 3 + (frames 2 array.2).length := by
  rw [arrayBytes, List.length_cons, List.length_append, digits_length]
  omega

/-- **What the loop over the arrays accepts.** -/
theorem appendArrays_ok_iff {count : ℕ} (hoffset : offset ≤ data.length) {output : List UInt8}
    {next : List UInt8 × ℕ} :
    appendArrays codec data count (output, offset) = .ok next ↔
      ∃ arrays rest, arrays.length = count ∧ data.drop offset = arraysBytes arrays ++ rest ∧
        (∀ array ∈ arrays, ArrayFits codec array) ∧
        next = (output ++ annexB (parameterSets arrays), offset + (arraysBytes arrays).length) := by
  induction count generalizing offset output next with
  | zero =>
    rw [appendArrays]
    constructor
    · intro h
      refine ⟨[], data.drop offset, rfl, rfl, fun _ h => by (cases h), ?_⟩
      rw [← Except.ok.inj h, parameterSets, List.flatMap_nil, annexB, List.flatMap_nil, List.append_nil]
      rfl
    · rintro ⟨arrays, rest, hcount, -, -, rfl⟩
      rw [List.length_eq_zero_iff.mp hcount, parameterSets, List.flatMap_nil, annexB, List.flatMap_nil,
        List.append_nil]
      rfl
  | succ count ih =>
    rw [appendArrays]
    constructor
    · intro h
      by_cases hend : offset = data.length
      · rw [if_pos hend] at h
        cases h
      · rw [if_neg hend] at h
        have hlt : offset < data.length := by omega
        obtain ⟨⟨length, offset₁⟩, hlength, hbody⟩ := StateExcept.bind_ok h
        dsimp only at hbody hlength
        obtain ⟨⟨output₂, offset₂⟩, hnals, hlater⟩ := StateExcept.bind_ok hbody
        obtain ⟨hroom, heq⟩ := readLength_le (by decide) hlt hlength
        obtain ⟨rfl, rfl⟩ := Prod.mk.inj heq
        have hle := (appendCount_le hroom hnals).2
        obtain ⟨nals, tail, hcount, hbytes, hsets, heq⟩ := (appendCount_ok_iff hroom).mp hnals
        obtain ⟨arrays, rest, harrays, hrest, hfits, rfl⟩ := (ih hle).mp hlater
        obtain ⟨rfl, rfl⟩ := Prod.mk.inj heq
        have htake : ((data.drop (offset + 1)).take 2).length = 2 := by
          apply List.length_take_of_le
          rw [List.length_drop]
          omega
        have hsmall : nals.length < 256 ^ 2 := by
          have hvalue := value_lt ((data.drop (offset + 1)).take 2)
          rw [htake] at hvalue
          rw [hcount]
          exact hvalue
        have hdigits : digits 2 nals.length = (data.drop (offset + 1)).take 2 := by
          have hvalue := digits_value ((data.drop (offset + 1)).take 2)
          rwa [htake, ← hcount] at hvalue
        have htail : data.drop (offset + 1 + 2 + (frames 2 nals).length) = tail := by
          rw [← List.drop_drop, hbytes]
          exact List.drop_left' rfl
        refine ⟨(data[offset], nals) :: arrays, rest, by rw [List.length_cons, harrays], ?_, ?_, ?_⟩
        · change data.drop (offset + 1 + 2 + (frames 2 nals).length) = arraysBytes arrays ++ rest at hrest
          rw [arraysBytes_cons_append, hdigits, ← hrest, htail, ← hbytes, List.drop_eq_getElem_cons hlt]
          have hset : data.drop (offset.succ + 2) = (data.drop (offset + 1)).drop 2 := List.drop_drop.symm
          rw [hset, List.take_append_drop]
        · intro array harray
          rcases List.mem_cons.mp harray with rfl | harray
          · exact ⟨hsmall, hsets⟩
          · exact hfits array harray
        · rw [arraysBytes_cons, List.length_append, arrayBytes_length, parameterSets_cons, annexB_append,
            List.append_assoc]
          congr 1
          dsimp only
          omega
    · rintro ⟨arrays, rest, hcount, hbytes, hfits, rfl⟩
      cases arrays with
      | nil => cases hcount
      | cons array arrays =>
        obtain ⟨type, nals⟩ := array
        obtain ⟨hsmall, hsets⟩ := hfits (type, nals) List.mem_cons_self
        have hlength := congrArg List.length hbytes
        rw [List.length_drop, arraysBytes_cons, List.length_append, List.length_append, arrayBytes_length] at hlength
        dsimp only at hlength
        have hnext : data.drop (offset + 1) = digits 2 nals.length
            ++ (frames 2 nals ++ (arraysBytes arrays ++ rest)) := by
          rw [← List.drop_drop, hbytes, arraysBytes_cons_append, List.drop_succ_cons, List.drop_zero]
        have htake : (data.drop (offset + 1)).take 2 = digits 2 nals.length := by
          rw [hnext]
          exact List.take_left' (digits_length _ _)
        have hsets_at : data.drop (offset + 1 + 2) = frames 2 nals ++ (arraysBytes arrays ++ rest) := by
          rw [← List.drop_drop, hnext]
          exact List.drop_left' (digits_length _ _)
        have hread : readLength data (offset + 1) 2 = .ok (nals.length, offset + 1 + 2) := by
          rw [readLength_two (by omega), htake, value_digits hsmall]
        have hnals : appendCount codec data nals.length (output, offset + 1 + 2)
            = .ok (output ++ annexB nals, offset + 1 + 2 + (frames 2 nals).length) :=
          (appendCount_ok_iff (by omega)).mpr ⟨nals, _, rfl, hsets_at, hsets, rfl⟩
        have hrest : data.drop (offset + 1 + 2 + (frames 2 nals).length) = arraysBytes arrays ++ rest := by
          rw [← List.drop_drop, hsets_at]
          exact List.drop_left' rfl
        have hlater := (@ih _ (by omega) (output ++ annexB nals) _).mpr
          ⟨arrays, rest, Nat.succ.inj hcount, hrest, fun other hother => hfits other (List.mem_cons_of_mem _ hother),
            rfl⟩
        rw [if_neg (by show ¬offset = data.length; omega)]
        show (readLength data (offset + 1) 2 >>= _) = _
        rw [hread]
        show (appendCount codec data nals.length (output, offset + 1 + 2) >>= _) = _
        rw [hnals]
        refine hlater.trans ?_
        rw [arraysBytes_cons, List.length_append, arrayBytes_length, parameterSets_cons, annexB_append,
          List.append_assoc]
        congr 2
        dsimp only
        omega

/-- The loop over the arrays stays inside the buffer. -/
theorem appendArrays_le {count : ℕ} (hoffset : offset ≤ data.length) {output : List UInt8} {next : List UInt8 × ℕ}
    (h : appendArrays codec data count (output, offset) = .ok next) : offset ≤ next.2 ∧ next.2 ≤ data.length := by
  obtain ⟨arrays, rest, -, hbytes, -, rfl⟩ := (appendArrays_ok_iff hoffset).mp h
  have hlength := congrArg List.length hbytes
  rw [List.length_drop, List.length_append] at hlength
  exact ⟨Nat.le_add_right _ _, by show offset + (arraysBytes arrays).length ≤ data.length; omega⟩

theorem safe_appendArrays {count : ℕ} (hoffset : offset ≤ data.length) (output : List UInt8) :
    Safe (appendArrays codec data count (output, offset)) := by
  induction count generalizing offset output with
  | zero => exact safe_ok _
  | succ count ih =>
    rw [appendArrays]
    by_cases hend : offset = data.length
    · rw [if_pos hend]
      exact safe_invalidArgument _
    · rw [if_neg hend]
      have hlt : offset < data.length := by omega
      refine (safe_readLength 2 (offset + 1) (by decide) hlt).bind fun found hfound => ?_
      obtain ⟨hroom, rfl⟩ := readLength_le (by decide) hlt hfound
      refine (safe_appendCount hroom output).bind fun next hnext => ?_
      obtain ⟨output', offset'⟩ := next
      exact ih (appendCount_le hroom hnext).2 output'

/-- Arrays are a prefix code, like the frames in them. -/
theorem arraysBytes_append_inj {left right : List ParameterArray} {a b : List UInt8}
    (hcount : left.length = right.length) (hleft : ∀ array ∈ left, ArrayFits codec array)
    (hright : ∀ array ∈ right, ArrayFits codec array) (h : arraysBytes left ++ a = arraysBytes right ++ b) :
    left = right ∧ a = b := by
  induction left generalizing right with
  | nil =>
    obtain rfl := List.length_eq_zero_iff.mp hcount.symm
    exact ⟨rfl, h⟩
  | cons array left ih =>
    cases right with
    | nil => cases hcount
    | cons other right =>
      obtain ⟨type, nals⟩ := array
      obtain ⟨type', nals'⟩ := other
      obtain ⟨hsmall, hsets⟩ := hleft (type, nals) List.mem_cons_self
      obtain ⟨hsmall', hsets'⟩ := hright (type', nals') List.mem_cons_self
      rw [arraysBytes_cons_append, arraysBytes_cons_append] at h
      obtain ⟨rfl, hbytes⟩ := List.cons.inj h
      obtain ⟨hdigits, hframes⟩ := List.append_inj hbytes (by rw [digits_length, digits_length])
      have hlength : nals.length = nals'.length := by
        have hvalue := congrArg value hdigits
        rwa [value_digits hsmall, value_digits hsmall'] at hvalue
      obtain ⟨rfl, hrest⟩ := frames_append_inj hlength (fun nal hnal => (hsets nal hnal).1.2)
        (fun nal hnal => (hsets' nal hnal).1.2) hframes
      obtain ⟨rfl, rfl⟩ := ih (Nat.succ.inj hcount) (fun array harray => hleft array (List.mem_cons_of_mem _ harray))
        (fun array harray => hright array (List.mem_cons_of_mem _ harray)) hrest
      exact ⟨rfl, rfl⟩

/-! ### Records -/

/-- `Configuration` behind the fixed fields of an avcC record. -/
def avcSets (data : List UInt8) (lengthWidth spsCount : ℕ) : Except Fault (ℕ × List UInt8) := do
  let sps ← appendCount .h264 data spsCount ([], 6)
  if sps.2 = data.length then invalidArgument "avcC 缺少 PPS 字段"
  else do
    let ppsCount ← byteAt data sps.2
    let pps ← appendCount .h264 data ppsCount.toNat (sps.1, sps.2 + 1)
    return (lengthWidth, pps.1)

/-- `Configuration` behind the fixed fields of an hvcC record. -/
def hevcSets (data : List UInt8) (lengthWidth arrays : ℕ) : Except Fault (ℕ × List UInt8) := do
  let sets ← appendArrays .h265 data arrays ([], 23)
  if sets.2 = data.length then return (lengthWidth, sets.1) else invalidArgument "hvcC 存在多余数据"

/-- The size of the fixed fields. -/
def minimumRecord : VideoCodec → ℕ
  | .h264 => 7
  | .h265 => 23

/-- A record without its fixed fields, or of another version. -/
theorem configuration_refused (h : data.length < minimumRecord codec ∨ data[0]? ≠ some 1) :
    configuration codec data = invalidArgument "视频编码配置记录无效" := by
  unfold configuration
  by_cases hshort : data.length < minimumRecord codec
  · exact if_pos hshort
  · have hpos : 0 < data.length := by
      cases codec with
      | h264 => exact Nat.lt_of_lt_of_le (by decide) (Nat.not_lt.mp hshort)
      | h265 => exact Nat.lt_of_lt_of_le (by decide) (Nat.not_lt.mp hshort)
    have hversion : data[0] ≠ 1 := by
      intro hone
      rw [List.getElem?_eq_getElem hpos, hone] at h
      exact h.elim hshort fun h => h rfl
    refine (if_neg hshort).trans ?_
    show (byteAt data 0 >>= _) = _
    rw [byteAt_ok hpos]
    exact if_pos hversion

/-- The fields of an avcC record. -/
theorem configuration_avc (profile compatibility level lengthByte spsByte next : UInt8) (rest : List UInt8) :
    configuration .h264 (1 :: profile :: compatibility :: level :: lengthByte :: spsByte :: next :: rest) =
      avcSets (1 :: profile :: compatibility :: level :: lengthByte :: spsByte :: next :: rest)
        ((lengthByte.toNat &&& 0x03) + 1) (spsByte.toNat &&& 0x1f) := by
  have hlong : ¬(1 :: profile :: compatibility :: level :: lengthByte :: spsByte :: next :: rest).length < 7 := by
    simp only [List.length_cons]
    omega
  unfold configuration
  refine (if_neg hlong).trans ?_
  show (appendCount .h264 _ (spsByte.toNat &&& 0x1f) ([], 6) >>= _) = _
  rw [avcSets]
  congr 1

/-- The fields of an hvcC record. -/
theorem configuration_hevc {general : List UInt8} (hgeneral : general.length = 20) (lengthByte arrayCount : UInt8)
    (rest : List UInt8) :
    configuration .h265 (1 :: (general ++ lengthByte :: arrayCount :: rest)) =
      hevcSets (1 :: (general ++ lengthByte :: arrayCount :: rest)) ((lengthByte.toNat &&& 0x03) + 1)
        arrayCount.toNat := by
  have hlong : ¬(1 :: (general ++ lengthByte :: arrayCount :: rest)).length < 23 := by
    simp only [List.length_cons, List.length_append]
    omega
  have hlength : byteAt (1 :: (general ++ lengthByte :: arrayCount :: rest)) 21 = .ok lengthByte := by
    rw [byteAt, List.getElem?_cons_succ, List.getElem?_append_right (by omega), hgeneral]
    rfl
  have hcount : byteAt (1 :: (general ++ lengthByte :: arrayCount :: rest)) 22 = .ok arrayCount := by
    rw [byteAt, List.getElem?_cons_succ, List.getElem?_append_right (by omega), hgeneral]
    rfl
  unfold configuration
  refine (if_neg hlong).trans ?_
  show (byteAt _ 21 >>= _) = _
  rw [hlength]
  show (byteAt _ 22 >>= _) = _
  rw [hcount]
  show (appendArrays .h265 _ arrayCount.toNat ([], 23) >>= _) = _
  rw [hevcSets]
  congr 1
  funext sets
  by_cases hend : sets.2 = (1 :: (general ++ lengthByte :: arrayCount :: rest)).length
  · rw [if_pos hend]
    exact if_neg (not_not.mpr hend)
  · rw [if_neg hend]
    exact if_pos hend

/-- A record with all its fixed fields. -/
theorem avcRecord_fields (h : 7 ≤ data.length) (hversion : data[0]? = some 1) :
    ∃ profile compatibility level lengthByte spsByte next rest,
      data = 1 :: profile :: compatibility :: level :: lengthByte :: spsByte :: next :: rest := by
  match data, h, hversion with
  | version :: profile :: compatibility :: level :: lengthByte :: spsByte :: next :: rest, _, hversion =>
    obtain rfl := Option.some.inj hversion
    exact ⟨profile, compatibility, level, lengthByte, spsByte, next, rest, rfl⟩

theorem hevcRecord_fields (h : 23 ≤ data.length) (hversion : data[0]? = some 1) :
    ∃ general lengthByte arrayCount rest,
      general.length = 20 ∧ data = 1 :: (general ++ lengthByte :: arrayCount :: rest) := by
  cases data with
  | nil => cases hversion
  | cons version bytes =>
    obtain rfl := Option.some.inj hversion
    rw [List.length_cons] at h
    refine ⟨bytes.take 20, bytes[20], bytes[21], bytes.drop 22, List.length_take_of_le (by omega), ?_⟩
    rw [← List.drop_eq_getElem_cons, ← List.drop_eq_getElem_cons, List.take_append_drop]

theorem drop_hevc {general : List UInt8} (hgeneral : general.length = 20) (lengthByte arrayCount : UInt8)
    (rest : List UInt8) : (1 :: (general ++ lengthByte :: arrayCount :: rest)).drop 23 = rest := by
  have hfixed : (1 : UInt8) :: (general ++ lengthByte :: arrayCount :: rest)
      = (1 :: (general ++ [lengthByte, arrayCount])) ++ rest := by
    rw [List.cons_append, List.append_assoc]
    rfl
  rw [hfixed]
  apply List.drop_left'
  rw [List.length_cons, List.length_append, hgeneral]
  rfl

/-- The parameter sets of an avcC record. -/
theorem avcSets_ok_iff {profile compatibility level lengthByte spsByte next : UInt8} {rest : List UInt8}
    (hdata : data = 1 :: profile :: compatibility :: level :: lengthByte :: spsByte :: next :: rest)
    {lengthWidth spsCount : ℕ} {found : ℕ × List UInt8} :
    avcSets data lengthWidth spsCount = .ok found ↔
      ∃ sps ppsCount pps trailing, next :: rest = frames 2 sps ++ ppsCount :: (frames 2 pps ++ trailing) ∧
        sps.length = spsCount ∧ pps.length = ppsCount.toNat ∧
        (∀ nal ∈ sps, ParameterSet .h264 nal) ∧ (∀ nal ∈ pps, ParameterSet .h264 nal) ∧
        found = (lengthWidth, annexB (sps ++ pps)) := by
  have hsix : 6 ≤ data.length := by
    rw [hdata]
    simp only [List.length_cons]
    omega
  have hdrop : data.drop 6 = next :: rest := by rw [hdata]; rfl
  rw [avcSets]
  constructor
  · intro h
    obtain ⟨⟨annexB₁, offset₁⟩, hsps, hlater⟩ := StateExcept.bind_ok h
    obtain ⟨sps, tail, hspsCount, hbytes, hspsSets, heq⟩ := (appendCount_ok_iff hsix).mp hsps
    obtain ⟨rfl, rfl⟩ := Prod.mk.inj heq
    dsimp only at hlater
    by_cases hend : 6 + (frames 2 sps).length = data.length
    · rw [if_pos hend] at hlater
      cases hlater
    · rw [if_neg hend] at hlater
      have hroom := (appendCount_le hsix hsps).2
      dsimp only at hroom
      have hlt : 6 + (frames 2 sps).length < data.length := by omega
      obtain ⟨ppsCount, hcount, hread⟩ := StateExcept.bind_ok hlater
      rw [byteAt_ok hlt] at hcount
      obtain rfl := Except.ok.inj hcount
      obtain ⟨⟨annexB₂, offset₂⟩, hpps, hret⟩ := StateExcept.bind_ok hread
      obtain ⟨pps, trailing, hppsCount, hrest, hppsSets, heq⟩ :=
        (appendCount_ok_iff (Nat.succ_le_of_lt hlt)).mp hpps
      obtain ⟨rfl, rfl⟩ := Prod.mk.inj heq
      have htail : data.drop (6 + (frames 2 sps).length) = tail := by
        rw [← List.drop_drop, hbytes]
        exact List.drop_left' rfl
      refine ⟨sps, data[6 + (frames 2 sps).length], pps, trailing, ?_, hspsCount, hppsCount, hspsSets, hppsSets, ?_⟩
      · rw [← hdrop, hbytes, ← htail, List.drop_eq_getElem_cons hlt, hrest]
      · rw [← Except.ok.inj hret, annexB_append]
        rfl
  · rintro ⟨sps, ppsCount, pps, trailing, hbytes, hspsCount, hppsCount, hspsSets, hppsSets, rfl⟩
    have hsps : appendCount .h264 data spsCount ([], 6) = .ok (annexB sps, 6 + (frames 2 sps).length) :=
      (appendCount_ok_iff hsix).mpr ⟨sps, _, hspsCount, hdrop.trans hbytes, hspsSets, rfl⟩
    have htail : data.drop (6 + (frames 2 sps).length) = ppsCount :: (frames 2 pps ++ trailing) := by
      rw [← List.drop_drop, hdrop, hbytes]
      exact List.drop_left' rfl
    have hlt : 6 + (frames 2 sps).length < data.length := by
      by_contra hshort
      rw [List.drop_eq_nil_of_le (by omega)] at htail
      cases htail
    rw [List.drop_eq_getElem_cons hlt] at htail
    obtain ⟨hcount, hrest⟩ := List.cons.inj htail
    have hpps : appendCount .h264 data ppsCount.toNat (annexB sps, 6 + (frames 2 sps).length + 1)
        = .ok (annexB sps ++ annexB pps, 6 + (frames 2 sps).length + 1 + (frames 2 pps).length) :=
      (appendCount_ok_iff hlt).mpr ⟨pps, trailing, hppsCount, hrest, hppsSets, rfl⟩
    rw [hsps]
    refine (if_neg (by show ¬6 + (frames 2 sps).length = data.length; omega)).trans ?_
    show (byteAt data (6 + (frames 2 sps).length) >>= _) = _
    rw [byteAt_ok hlt, hcount]
    show (appendCount .h264 data ppsCount.toNat (annexB sps, 6 + (frames 2 sps).length + 1) >>= _) = _
    rw [hpps, annexB_append]
    rfl

/-- The parameter sets of an hvcC record. -/
theorem hevcSets_ok_iff {rest : List UInt8} (hlong : 23 ≤ data.length) (hdrop : data.drop 23 = rest)
    {lengthWidth count : ℕ} {found : ℕ × List UInt8} :
    hevcSets data lengthWidth count = .ok found ↔
      ∃ arrays, rest = arraysBytes arrays ∧ arrays.length = count ∧ (∀ array ∈ arrays, ArrayFits .h265 array) ∧
        found = (lengthWidth, annexB (parameterSets arrays)) := by
  have hrestLength : rest.length = data.length - 23 := by
    rw [← hdrop, List.length_drop]
  rw [hevcSets]
  constructor
  · intro h
    obtain ⟨⟨annexB₁, offset₁⟩, hsets, hlater⟩ := StateExcept.bind_ok h
    obtain ⟨arrays, tail, hcount, hbytes, hfits, heq⟩ := (appendArrays_ok_iff hlong).mp hsets
    obtain ⟨rfl, rfl⟩ := Prod.mk.inj heq
    dsimp only at hlater
    by_cases hend : 23 + (arraysBytes arrays).length = data.length
    · rw [if_pos hend] at hlater
      have hlength := congrArg List.length hbytes
      rw [hdrop, List.length_append] at hlength
      obtain rfl : tail = [] := List.length_eq_zero_iff.mp (by omega)
      exact ⟨arrays, by rw [← hdrop, hbytes, List.append_nil], hcount, hfits, (Except.ok.inj hlater).symm⟩
    · rw [if_neg hend] at hlater
      cases hlater
  · rintro ⟨arrays, hbytes, hcount, hfits, rfl⟩
    have hsets : appendArrays .h265 data count ([], 23)
        = .ok (annexB (parameterSets arrays), 23 + (arraysBytes arrays).length) :=
      (appendArrays_ok_iff hlong).mpr
        ⟨arrays, [], hcount, by rw [hdrop, hbytes, List.append_nil], hfits, rfl⟩
    rw [hsets]
    refine if_pos ?_
    show 23 + (arraysBytes arrays).length = data.length
    rw [← hbytes]
    omega

/-- **What a record says**: the width of its NAL lengths, and its parameter sets in order.  The SPS come before the
PPS in an avcC record, and the arrays of an hvcC record end with it. -/
def Lists (codec : VideoCodec) (data : List UInt8) (lengthWidth : ℕ) (nals : List (List UInt8)) : Prop :=
  match codec with
  | .h264 => ∃ profile compatibility level lengthByte spsByte sps ppsCount pps trailing,
      data = avcRecord profile compatibility level lengthByte spsByte sps ppsCount pps trailing ∧
      sps.length = spsByte.toNat &&& 0x1f ∧ pps.length = ppsCount.toNat ∧
      (∀ nal ∈ sps, ParameterSet .h264 nal) ∧ (∀ nal ∈ pps, ParameterSet .h264 nal) ∧
      lengthWidth = (lengthByte.toNat &&& 0x03) + 1 ∧ nals = sps ++ pps
  | .h265 => ∃ general lengthByte arrayCount arrays, general.length = 20 ∧
      data = hevcRecord general lengthByte arrayCount arrays ∧ arrays.length = arrayCount.toNat ∧
      (∀ array ∈ arrays, ArrayFits .h265 array) ∧
      lengthWidth = (lengthByte.toNat &&& 0x03) + 1 ∧ nals = parameterSets arrays

theorem Lists.long {lengthWidth : ℕ} {nals : List (List UInt8)} (h : Lists codec data lengthWidth nals) :
    minimumRecord codec ≤ data.length ∧ data[0]? = some 1 := by
  cases codec with
  | h264 =>
    obtain ⟨profile, compatibility, level, lengthByte, spsByte, sps, ppsCount, pps, trailing, rfl, -⟩ := h
    refine ⟨?_, rfl⟩
    simp only [minimumRecord, avcRecord, List.length_cons, List.length_append]
    omega
  | h265 =>
    obtain ⟨general, lengthByte, arrayCount, arrays, hgeneral, rfl, -⟩ := h
    refine ⟨?_, rfl⟩
    simp only [minimumRecord, hevcRecord, List.length_cons, List.length_append]
    omega

/-- **`Configuration`** accepts the records and returns what they list. -/
theorem configuration_ok_iff {lengthWidth : ℕ} {annexBytes : List UInt8} :
    configuration codec data = .ok (lengthWidth, annexBytes) ↔
      ∃ nals, Lists codec data lengthWidth nals ∧ annexBytes = annexB nals := by
  by_cases hfields : minimumRecord codec ≤ data.length ∧ data[0]? = some 1
  · obtain ⟨hlong, hversion⟩ := hfields
    cases codec with
    | h264 =>
      obtain ⟨profile, compatibility, level, lengthByte, spsByte, next, rest, hdata⟩ :=
        avcRecord_fields hlong hversion
      have hconf := configuration_avc profile compatibility level lengthByte spsByte next rest
      rw [← hdata] at hconf
      rw [hconf, avcSets_ok_iff hdata]
      constructor
      · rintro ⟨sps, ppsCount, pps, trailing, hbytes, hspsCount, hppsCount, hsps, hpps, heq⟩
        obtain ⟨rfl, rfl⟩ := Prod.mk.inj heq
        exact ⟨sps ++ pps, ⟨profile, compatibility, level, lengthByte, spsByte, sps, ppsCount, pps, trailing,
          by rw [hdata, hbytes, avcRecord], hspsCount, hppsCount, hsps, hpps, rfl, rfl⟩, rfl⟩
      · rintro ⟨nals, ⟨profile', compatibility', level', lengthByte', spsByte', sps, ppsCount, pps, trailing,
          hdata', hspsCount, hppsCount, hsps, hpps, rfl, rfl⟩, rfl⟩
        rw [hdata, avcRecord] at hdata'
        simp only [List.cons.injEq, true_and] at hdata'
        obtain ⟨-, -, -, rfl, rfl, hbytes⟩ := hdata'
        exact ⟨sps, ppsCount, pps, trailing, hbytes, hspsCount, hppsCount, hsps, hpps, rfl⟩
    | h265 =>
      obtain ⟨general, lengthByte, arrayCount, rest, hgeneral, hdata⟩ := hevcRecord_fields hlong hversion
      have hconf := configuration_hevc hgeneral lengthByte arrayCount rest
      have hdrop := drop_hevc hgeneral lengthByte arrayCount rest
      rw [← hdata] at hconf hdrop
      rw [hconf, hevcSets_ok_iff hlong hdrop]
      constructor
      · rintro ⟨arrays, hbytes, hcount, hfits, heq⟩
        obtain ⟨rfl, rfl⟩ := Prod.mk.inj heq
        exact ⟨parameterSets arrays, ⟨general, lengthByte, arrayCount, arrays, hgeneral,
          by rw [hdata, hbytes, hevcRecord], hcount, hfits, rfl, rfl⟩, rfl⟩
      · rintro ⟨nals, ⟨general', lengthByte', arrayCount', arrays, hgeneral', hdata', hcount, hfits, rfl, rfl⟩, rfl⟩
        rw [hdata, hevcRecord] at hdata'
        obtain ⟨-, hbody⟩ := List.cons.inj hdata'
        obtain ⟨rfl, hfixed⟩ := List.append_inj hbody (hgeneral.trans hgeneral'.symm)
        simp only [List.cons.injEq] at hfixed
        obtain ⟨rfl, rfl, hbytes⟩ := hfixed
        exact ⟨arrays, hbytes, hcount, hfits, rfl⟩
  · have hrefused : data.length < minimumRecord codec ∨ data[0]? ≠ some 1 := by
      by_contra hnot
      rw [not_or, not_lt, not_not] at hnot
      exact hfields hnot
    rw [configuration_refused hrefused]
    constructor
    · intro h
      cases h
    · rintro ⟨nals, hlists, -⟩
      exact absurd hlists.long hfields

/-- **`Configuration` throws nothing but `std::invalid_argument`**, and reads inside the record. -/
theorem safe_configuration : Safe (configuration codec data) := by
  by_cases hfields : minimumRecord codec ≤ data.length ∧ data[0]? = some 1
  · obtain ⟨hlong, hversion⟩ := hfields
    cases codec with
    | h264 =>
      obtain ⟨profile, compatibility, level, lengthByte, spsByte, next, rest, hdata⟩ :=
        avcRecord_fields hlong hversion
      have hconf := configuration_avc profile compatibility level lengthByte spsByte next rest
      rw [← hdata] at hconf
      rw [hconf, avcSets]
      have hsix : 6 ≤ data.length := Nat.le_trans (by decide) hlong
      refine (safe_appendCount hsix []).bind fun sps hsps => ?_
      have hroom := (appendCount_le hsix hsps).2
      by_cases hend : sps.2 = data.length
      · rw [if_pos hend]
        exact safe_invalidArgument _
      · have hlt : sps.2 < data.length := by omega
        rw [if_neg hend, byteAt_ok hlt]
        exact (safe_appendCount hlt sps.1).bind fun _ _ => safe_ok _
    | h265 =>
      obtain ⟨general, lengthByte, arrayCount, rest, hgeneral, hdata⟩ := hevcRecord_fields hlong hversion
      have hconf := configuration_hevc hgeneral lengthByte arrayCount rest
      rw [← hdata] at hconf
      rw [hconf, hevcSets]
      refine (safe_appendArrays hlong []).bind fun sets _ => ?_
      by_cases hend : sets.2 = data.length
      · rw [if_pos hend]
        exact safe_ok _
      · rw [if_neg hend]
        exact safe_invalidArgument _
  · have hrefused : data.length < minimumRecord codec ∨ data[0]? ≠ some 1 := by
      by_contra hnot
      rw [not_or, not_lt, not_not] at hnot
      exact hfields hnot
    rw [configuration_refused hrefused]
    exact safe_invalidArgument _

/-- A part of a record with nothing after its parameter sets is no record. -/
theorem avc_truncated {profile compatibility level lengthByte spsByte ppsCount : UInt8} {sps pps : List (List UInt8)}
    (hspsCount : sps.length = spsByte.toNat &&& 0x1f) (hppsCount : pps.length = ppsCount.toNat)
    (hsps : ∀ nal ∈ sps, ParameterSet .h264 nal) (hpps : ∀ nal ∈ pps, ParameterSet .h264 nal)
    {taken cut : List UInt8} (hcut : cut ≠ [])
    (h : taken ++ cut = avcRecord profile compatibility level lengthByte spsByte sps ppsCount pps [])
    {lengthWidth : ℕ} {nals : List (List UInt8)} : ¬Lists .h264 taken lengthWidth nals := by
  rintro ⟨profile', compatibility', level', lengthByte', spsByte', sps', ppsCount', pps', trailing, rfl, hspsCount',
    hppsCount', hsps', hpps', -, -⟩
  simp only [avcRecord, List.cons_append, List.cons.injEq, true_and, List.append_assoc, List.append_nil] at h
  obtain ⟨-, -, -, -, rfl, hbytes⟩ := h
  obtain ⟨rfl, hrest⟩ := frames_append_inj (hspsCount'.trans hspsCount.symm) (fun nal hnal => (hsps' nal hnal).1.2)
    (fun nal hnal => (hsps nal hnal).1.2) hbytes
  obtain ⟨rfl, hsets⟩ := List.cons.inj hrest
  rw [← List.append_nil (frames 2 pps)] at hsets
  obtain ⟨-, hnone⟩ := frames_append_inj (hppsCount'.trans hppsCount.symm) (fun nal hnal => (hpps' nal hnal).1.2)
    (fun nal hnal => (hpps nal hnal).1.2) hsets
  exact hcut (List.append_eq_nil_iff.mp hnone).2

theorem hevc_truncated {general : List UInt8} (hgeneral : general.length = 20) {lengthByte arrayCount : UInt8}
    {arrays : List ParameterArray} (hcount : arrays.length = arrayCount.toNat)
    (hfits : ∀ array ∈ arrays, ArrayFits .h265 array) {taken cut : List UInt8} (hcut : cut ≠ [])
    (h : taken ++ cut = hevcRecord general lengthByte arrayCount arrays)
    {lengthWidth : ℕ} {nals : List (List UInt8)} : ¬Lists .h265 taken lengthWidth nals := by
  rintro ⟨general', lengthByte', arrayCount', arrays', hgeneral', rfl, hcount', hfits', -, -⟩
  rw [hevcRecord, hevcRecord, List.cons_append, List.append_assoc] at h
  obtain ⟨-, hbody⟩ := List.cons.inj h
  obtain ⟨rfl, hfixed⟩ := List.append_inj hbody (hgeneral'.trans hgeneral.symm)
  simp only [List.cons_append, List.cons.injEq] at hfixed
  obtain ⟨-, rfl, hbytes⟩ := hfixed
  rw [← List.append_nil (arraysBytes arrays)] at hbytes
  obtain ⟨-, hnone⟩ := arraysBytes_append_inj (hcount'.trans hcount.symm) hfits' hfits hbytes
  exact hcut hnone

/-- What a record does not list is refused. -/
theorem refused_of_not_lists (h : ∀ lengthWidth nals, ¬Lists codec data lengthWidth nals) :
    ∃ what, configuration codec data = .error (.thrown (.invalidArgument what)) := by
  cases hconf : configuration codec data with
  | ok found =>
    obtain ⟨lengthWidth, annexBytes⟩ := found
    obtain ⟨nals, hlists, -⟩ := configuration_ok_iff.mp hconf
    exact absurd hlists (h lengthWidth nals)
  | error f =>
    obtain ⟨what, rfl⟩ := safe_configuration f hconf
    exact ⟨what, rfl⟩

theorem Lists.sound {lengthWidth : ℕ} {nals : List (List UInt8)} (h : Lists codec data lengthWidth nals) :
    1 ≤ lengthWidth ∧ lengthWidth ≤ 4 ∧ ∀ nal ∈ nals, ParameterSet codec nal := by
  have hwidth : ∀ byte : UInt8, 1 ≤ (byte.toNat &&& 0x03) + 1 ∧ (byte.toNat &&& 0x03) + 1 ≤ 4 := by
    intro byte
    have hle : byte.toNat &&& 0x03 ≤ 3 := Nat.and_le_right
    omega
  cases codec with
  | h264 =>
    obtain ⟨-, -, -, lengthByte, -, sps, -, pps, -, -, -, -, hsps, hpps, rfl, rfl⟩ := h
    refine ⟨(hwidth lengthByte).1, (hwidth lengthByte).2, fun nal hnal => ?_⟩
    exact (List.mem_append.mp hnal).elim (hsps nal) (hpps nal)
  | h265 =>
    obtain ⟨-, lengthByte, -, arrays, -, -, -, hfits, rfl, rfl⟩ := h
    refine ⟨(hwidth lengthByte).1, (hwidth lengthByte).2, fun nal hnal => ?_⟩
    obtain ⟨array, harray, hmem⟩ := List.mem_flatMap.mp hnal
    exact (hfits array harray).2 nal hmem

/-- **The configuration parser is exact and safe.**  `Configuration` throws `std::invalid_argument` or returns, and
the offset stays inside the record.  It accepts just the records, and returns the parameter sets that the counts
of the record list, in order, each of the least size of its codec and with a valid header, with the NAL length
width of the record.  A record of valid parameter sets gives them back, and no part of it is accepted. -/
theorem record_exact :
    (∀ codec data,
      (∀ f, configuration codec data = .error f → ∃ what, f = .thrown (.invalidArgument what)) ∧
      (∀ offset ≤ data.length, ∀ count output next, appendCount codec data count (output, offset) = .ok next →
        offset ≤ next.2 ∧ next.2 ≤ data.length) ∧
      (∀ offset ≤ data.length, ∀ count output next, appendArrays codec data count (output, offset) = .ok next →
        offset ≤ next.2 ∧ next.2 ≤ data.length) ∧
      (∀ lengthWidth output, configuration codec data = .ok (lengthWidth, output) ↔
        ∃ nals, Lists codec data lengthWidth nals ∧ output = annexB nals) ∧
      ∀ lengthWidth nals, Lists codec data lengthWidth nals → 1 ≤ lengthWidth ∧ lengthWidth ≤ 4 ∧
        ∀ nal ∈ nals, codec.minimum ≤ nal.length ∧ validNalHeader codec nal = .ok true) ∧
    (∀ profile compatibility level lengthByte spsByte ppsCount sps pps, sps.length = spsByte.toNat &&& 0x1f →
      pps.length = ppsCount.toNat → (∀ nal ∈ sps, ParameterSet .h264 nal) → (∀ nal ∈ pps, ParameterSet .h264 nal) →
      (∀ trailing, configuration .h264
          (avcRecord profile compatibility level lengthByte spsByte sps ppsCount pps trailing) =
        .ok ((lengthByte.toNat &&& 0x03) + 1, annexB (sps ++ pps))) ∧
      ∀ taken cut, cut ≠ [] →
        taken ++ cut = avcRecord profile compatibility level lengthByte spsByte sps ppsCount pps [] →
        ∃ what, configuration .h264 taken = .error (.thrown (.invalidArgument what))) ∧
    ∀ general lengthByte arrayCount arrays, general.length = 20 → arrays.length = arrayCount.toNat →
      (∀ array ∈ arrays, ArrayFits .h265 array) →
      configuration .h265 (hevcRecord general lengthByte arrayCount arrays) =
        .ok ((lengthByte.toNat &&& 0x03) + 1, annexB (parameterSets arrays)) ∧
      ∀ taken cut, cut ≠ [] → taken ++ cut = hevcRecord general lengthByte arrayCount arrays →
        ∃ what, configuration .h265 taken = .error (.thrown (.invalidArgument what)) := by
  refine ⟨fun codec data => ⟨safe_configuration, ?_, ?_, fun _ _ => configuration_ok_iff, ?_⟩, ?_, ?_⟩
  · intro offset hoffset count output next h
    exact appendCount_le hoffset h
  · intro offset hoffset count output next h
    exact appendArrays_le hoffset h
  · intro lengthWidth nals h
    obtain ⟨hpos, hfour, hsets⟩ := h.sound
    exact ⟨hpos, hfour, fun nal hnal => ⟨(hsets nal hnal).1.1, (hsets nal hnal).2⟩⟩
  · intro profile compatibility level lengthByte spsByte ppsCount sps pps hspsCount hppsCount hsps hpps
    refine ⟨fun trailing => ?_, fun taken cut hcut h => ?_⟩
    · exact configuration_ok_iff.mpr ⟨sps ++ pps, ⟨profile, compatibility, level, lengthByte, spsByte, sps, ppsCount,
        pps, trailing, rfl, hspsCount, hppsCount, hsps, hpps, rfl, rfl⟩, rfl⟩
    · exact refused_of_not_lists fun _ _ => avc_truncated hspsCount hppsCount hsps hpps hcut h
  · intro general lengthByte arrayCount arrays hgeneral hcount hfits
    refine ⟨?_, fun taken cut hcut h => ?_⟩
    · exact configuration_ok_iff.mpr ⟨parameterSets arrays, ⟨general, lengthByte, arrayCount, arrays, hgeneral, rfl,
        hcount, hfits, rfl, rfl⟩, rfl⟩
    · exact refused_of_not_lists fun _ _ => hevc_truncated hgeneral hcount hfits hcut h

/-- One SPS and one PPS. -/
theorem record_exact_avc :
    configuration .h264 [1, 0x42, 0, 0x1e, 0xff, 0xe1, 0, 2, 0x67, 0x42, 1, 0, 2, 0x68, 0xce] =
      .ok (4, [0, 0, 0, 1, 0x67, 0x42, 0, 0, 0, 1, 0x68, 0xce]) :=
  (record_exact.2.1 0x42 0 0x1e 0xff 0xe1 1 [[0x67, 0x42]] [[0x68, 0xce]] rfl rfl
    (by decide) (by decide)).1 []

end PacketConverter

end MwStreamer
