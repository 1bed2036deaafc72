import MwStreamer.Library.Rounding

/-!
# The libavutil functions the streamer calls

FFmpeg is an external library, so its functions are the fields of a class and everything above is
proved for every implementation that behaves as the library documents.  Timestamp arithmetic is fixed by
laws: `av_rescale_q` is the exact rational product rounded to nearest, halfway cases away from zero, and
a product the result type cannot hold comes back as one of the two values every caller in the streamer
treats as a failure (`AV_NOPTS_VALUE` or the largest `int64_t`).  `av_compare_ts` is exact as long as each
timestamp is an `int64_t` in the time base of the other; outside that the library leaves its result
undefined.  Format queries have no laws: the streamer only branches on their answers.

`Libav.reference` is an executable implementation, so the laws are satisfiable and every definition over
them can be run.
-/

namespace MwStreamer

open Rounding

/-- `AVRational`: a time base, a frame rate or any other ratio of two C integers. -/
structure AVRational where
  num : ℤ
  den : ℤ
  deriving DecidableEq, Repr

/-- Both components positive: what every time base accepted by the streamer satisfies. -/
def AVRational.Positive (q : AVRational) : Prop := 0 < q.num ∧ 0 < q.den

instance (q : AVRational) : Decidable q.Positive := inferInstanceAs (Decidable (_ ∧ _))

/-- `av_inv_q`. -/
def avInvQ (q : AVRational) : AVRational := ⟨q.den, q.num⟩

/-- `av_reduce` for two `int`s: lowest terms, which are within every limit that `int` is. -/
def avReduce (num den : ℤ) : AVRational := ⟨num / Int.gcd num den, den / Int.gcd num den⟩

theorem avInvQ_positive {q : AVRational} (h : q.Positive) : (avInvQ q).Positive := ⟨h.2, h.1⟩

def int64Min : ℤ := -9223372036854775808
def int64Max : ℤ := 9223372036854775807

/-- `AV_NOPTS_VALUE`, the smallest `int64_t`. -/
def avNoptsValue : ℤ := int64Min

/-- `AVERROR(EAGAIN)` and `AVERROR_EOF`. -/
def averrorEagain : ℤ := -11
def averrorEof : ℤ := -541478725

/-- The exact product `a * bq / cq`, rounded as `AV_ROUND_NEAR_INF` does. -/
def scaled (a : ℤ) (bq cq : AVRational) : ℤ :=
  roundNear (a * (bq.num * cq.den)) (bq.den * cq.num)

/-- The timestamp is an `int64_t` in the other time base. -/
def Representable (a : ℤ) (bq cq : AVRational) : Prop :=
  int64Min * (bq.den * cq.num) ≤ a * (bq.num * cq.den) ∧
    a * (bq.num * cq.den) ≤ int64Max * (bq.den * cq.num)

instance (a : ℤ) (bq cq : AVRational) : Decidable (Representable a bq cq) :=
  inferInstanceAs (Decidable (_ ∧ _))

/-- A pixel format descriptor, as far as its flags are read. -/
structure PixFmtDescriptor where
  rgb : Bool
  hwaccel : Bool
  deriving DecidableEq, Repr

/-- `AVChannelLayout`. -/
structure ChannelLayout where
  nbChannels : ℤ
  mask : ℕ
  deriving DecidableEq, Repr

/-- The functions of libavutil the streamer calls, with the documented laws of its arithmetic. -/
class Libav where
  avRescaleQ : ℤ → AVRational → AVRational → ℤ
  avRescaleQ_exact : ∀ a bq cq, bq.Positive → cq.Positive →
    int64Min < scaled a bq cq → scaled a bq cq < int64Max → avRescaleQ a bq cq = scaled a bq cq
  avRescaleQ_failure : ∀ a bq cq, bq.Positive → cq.Positive →
    ¬(int64Min < scaled a bq cq ∧ scaled a bq cq < int64Max) →
      avRescaleQ a bq cq = avNoptsValue ∨ avRescaleQ a bq cq = int64Max
  avCmpQ : AVRational → AVRational → ℤ
  avCmpQ_eq_zero : ∀ a b, a.Positive → b.Positive → (avCmpQ a b = 0 ↔ a.num * b.den = b.num * a.den)
  avCompareTs : ℤ → AVRational → ℤ → AVRational → ℤ
  avCompareTs_lt : ∀ a p b q, p.Positive → q.Positive → Representable a p q → Representable b q p →
    (avCompareTs a p b q < 0 ↔ a * (p.num * q.den) < b * (q.num * p.den))
  avCompareTs_gt : ∀ a p b q, p.Positive → q.Positive → Representable a p q → Representable b q p →
    (0 < avCompareTs a p b q ↔ b * (q.num * p.den) < a * (p.num * q.den))
  avPixFmtDescGet : ℤ → Option PixFmtDescriptor
  avGetSampleFmtName : ℤ → Option String
  avChannelLayoutCheck : ChannelLayout → Bool
  avChannelLayoutCompare : ChannelLayout → ChannelLayout → ℤ

export Libav (avRescaleQ avCmpQ avCompareTs avPixFmtDescGet avGetSampleFmtName
  avChannelLayoutCheck avChannelLayoutCompare)

/-- `av_rescale_rnd` rounding down, with the smallest `int64_t` for an overflow. -/
def floorScaled (a : ℤ) (bq cq : AVRational) : ℤ :=
  let r := a * (bq.num * cq.den) / (bq.den * cq.num)
  if int64Min ≤ r ∧ r ≤ int64Max then r else int64Min

theorem floorScaled_lt_iff {a b : ℤ} {p q : AVRational} (hp : p.Positive) (hq : q.Positive)
    (h : Representable a p q) :
    floorScaled a p q < b ↔ a * (p.num * q.den) < b * (q.num * p.den) := by
  have hd : 0 < p.den * q.num := Int.mul_pos hp.2 hq.1
  have hrange : int64Min ≤ a * (p.num * q.den) / (p.den * q.num) ∧
      a * (p.num * q.den) / (p.den * q.num) ≤ int64Max := by
    constructor
    · exact (Int.le_ediv_iff_mul_le hd).mpr h.1
    · exact Int.le_of_lt_add_one ((Int.ediv_lt_iff_lt_mul hd).mpr (by nlinarith [h.2]))
  rw [floorScaled]
  simp only [if_pos hrange]
  rw [Int.ediv_lt_iff_lt_mul hd, Int.mul_comm p.den q.num]

/-- The comparison of libavutil, by two roundings down. -/
def compareTs (a : ℤ) (p : AVRational) (b : ℤ) (q : AVRational) : ℤ :=
  if floorScaled a p q < b then -1 else if floorScaled b q p < a then 1 else 0

theorem compareTs_lt {a b : ℤ} {p q : AVRational} (hp : p.Positive) (hq : q.Positive)
    (h : Representable a p q) :
    compareTs a p b q < 0 ↔ a * (p.num * q.den) < b * (q.num * p.den) := by
  rw [← floorScaled_lt_iff hp hq h, compareTs]
  split
  · rename_i hlt
    exact ⟨fun _ => hlt, fun _ => by decide⟩
  · rename_i hge
    split
    · exact ⟨fun h => absurd h (by decide), fun h => absurd h hge⟩
    · exact ⟨fun h => absurd h (by decide), fun h => absurd h hge⟩

theorem compareTs_gt {a b : ℤ} {p q : AVRational} (hp : p.Positive) (hq : q.Positive)
    (h : Representable a p q) (h' : Representable b q p) :
    0 < compareTs a p b q ↔ b * (q.num * p.den) < a * (p.num * q.den) := by
  rw [← floorScaled_lt_iff hq hp h', compareTs]
  split
  · rename_i hlt
    rw [floorScaled_lt_iff hp hq h] at hlt
    rw [floorScaled_lt_iff hq hp h']
    exact ⟨fun h => absurd h (by decide), fun h => absurd h (Int.not_lt.mpr (Int.le_of_lt hlt))⟩
  · split
    · rename_i hlt
      exact ⟨fun _ => hlt, fun _ => by decide⟩
    · rename_i hge
      exact ⟨fun h => absurd h (by decide), fun h => absurd h hge⟩

/-- An executable implementation.  Pixel formats `0`–`9` are software formats, `10`–`19` hardware ones. -/
@[reducible]
def Libav.reference : Libav where
  avRescaleQ a bq cq :=
    let r := scaled a bq cq
    if int64Min < r ∧ r < int64Max then r else avNoptsValue
  avRescaleQ_exact _ _ _ _ _ h₁ h₂ := if_pos ⟨h₁, h₂⟩
  avRescaleQ_failure _ _ _ _ _ h := .inl (if_neg h)
  avCmpQ a b := a.num * b.den - b.num * a.den
  avCmpQ_eq_zero _ _ _ _ := sub_eq_zero
  avCompareTs := compareTs
  avCompareTs_lt _ _ _ _ hp hq h _ := compareTs_lt hp hq h
  avCompareTs_gt _ _ _ _ hp hq h h' := compareTs_gt hp hq h h'
  avPixFmtDescGet f :=
    if 0 ≤ f ∧ f < 20 then some ⟨false, decide (10 ≤ f)⟩ else none
  avGetSampleFmtName f := if 0 ≤ f ∧ f < 12 then some "fmt" else none
  avChannelLayoutCheck l := decide (0 < l.nbChannels)
  avChannelLayoutCompare a b := if a = b then 0 else 1

/-- The exceptions the sources throw, with their texts.  `ffmpeg` is a `FfmpegException`, `callback` an exception
of a user callback passing through, `badOptional` a dereference of an empty `std::optional`. -/
inductive Exception where
  | overflowError (what : String)
  | invalidArgument (what : String)
  | logicError (what : String)
  | runtimeError (what : String)
  | ffmpeg (error : ℤ) (operation : String)
  | callback
  | badOptional
  deriving DecidableEq, Repr

/-- `av_rescale_q` with the check every component makes on its result; each passes its own text. -/
def rescaleChecked [Libav] (what : String) (value : ℤ) (bq cq : AVRational) : Except Exception ℤ :=
  let result := avRescaleQ value bq cq
  if result = avNoptsValue ∨ result = int64Max then .error (.overflowError what) else .ok result

/-- **The checked conversion, completely.**  It returns exactly the rounded product, and only when that
lies strictly inside `int64_t`. -/
theorem rescaleChecked_ok_iff [Libav] {what : String} {value r : ℤ} {bq cq : AVRational}
    (hb : bq.Positive) (hc : cq.Positive) :
    rescaleChecked what value bq cq = .ok r ↔
      r = scaled value bq cq ∧ int64Min < r ∧ r < int64Max := by
  by_cases hr : int64Min < scaled value bq cq ∧ scaled value bq cq < int64Max
  · have heq := Libav.avRescaleQ_exact value bq cq hb hc hr.1 hr.2
    have hne : ¬(scaled value bq cq = avNoptsValue ∨ scaled value bq cq = int64Max) := by
      rintro (h | h)
      · exact absurd h hr.1.ne'
      · exact absurd h hr.2.ne
    rw [rescaleChecked]
    simp only [heq, if_neg hne, Except.ok.injEq]
    constructor
    · rintro rfl; exact ⟨rfl, hr⟩
    · rintro ⟨rfl, -⟩; rfl
  · have hfail := Libav.avRescaleQ_failure value bq cq hb hc hr
    rw [rescaleChecked]
    simp only [if_pos hfail, reduceCtorEq, false_iff]
    rintro ⟨rfl, h⟩
    exact hr h

end MwStreamer
