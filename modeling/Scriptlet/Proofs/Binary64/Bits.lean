import Mathlib.Algebra.Ring.Nat
import Scriptlet.Binary64

/-!
# Numbers and their bits

A finite number is determined by its sign and its magnitude: it is what its magnitude stands for, or
the negation of that (`eq_ofMagnitude`). Operations on numbers unpack their bits into a sign, a
mantissa and an exponent and pack the result again, so the proof goes through these three fields.
-/

namespace Scriptlet.Binary64

open Float.Model Float.Model.UnpackedFloat

/-! ## Fields -/

section Fields

variable {s : Sign} {e : BitVec 11} {m : BitVec 52}

/-- The bit pattern with the given sign, exponent and mantissa. -/
def ofFields (s : Sign) (e : BitVec 11) (m : BitVec 52) : BitVec Format.binary64.numBits :=
  packComponents Format.binary64 s e m

/-- The number with the given fields, unpacked. -/
def unpacked (s : Sign) (e : BitVec 11) (m : BitVec 52) : UnpackedFloat :=
  UnpackedFloat.unpack Format.binary64 (ofFields s e m)

/-- The three fields do not overlap, so that a bit pattern as a number is their sum by weight. -/
theorem toNat_ofFields (s : Sign) (e : BitVec 11) (m : BitVec 52) :
    (ofFields s e m).toNat = s.toBitVec.toNat * 2 ^ 63 + (e.toNat * 2 ^ 52 + m.toNat) := by
  unfold ofFields packComponents
  rw [BitVec.toNat_append, BitVec.toNat_append, ← Nat.shiftLeft_add_eq_or_of_lt m.isLt,
    ← Nat.shiftLeft_add_eq_or_of_lt e.isLt, Nat.shiftLeft_eq, Nat.shiftLeft_eq]
  omega

theorem unpackSign_ofFields : unpackSign (ofFields s e m) = s.toBitVec := by
  have he := e.isLt
  have hm := m.isLt
  apply BitVec.eq_of_toNat_eq
  unfold unpackSign
  simp only [BitVec.toNat_cast, BitVec.extractLsb_toNat, toNat_ofFields, Nat.shiftRight_eq_div_pow]
  cases s <;> simp only [Sign.toBitVec, BitVec.toNat_ofNat] <;> omega

theorem ofBitVec_toBitVec (s : Sign) : Sign.ofBitVec s.toBitVec = s := by
  cases s <;> rfl

theorem finite_congr {k n : Nat} {i j : Int} (hk : 0 < k) (hn : 0 < n) (hkn : k = n) (hij : i = j) :
    UnpackedFloat.finite s k i hk = .finite s n j hn := by
  subst hkn hij
  rfl

/-- Unpacking by fields. The implicit bit of a normal mantissa is added. -/
theorem unpacked_eq (s : Sign) (e : BitVec 11) (m : BitVec 52) :
    unpacked s e m =
      if e = -1#11 then if m = 0#52 then .infinity s else .notANumber
      else if e = 0#11 then
        if hm : m = 0#52 then .zero s
        else .finite s m.toNat (-1074) (Nat.pos_of_ne_zero fun h => hm (BitVec.eq_of_toNat_eq h))
      else .finite s (2 ^ 52 + m.toNat) (e.toNat - 1075) (by omega) := by
  have hnormal : (1#1 ++ m).toNat = 2 ^ 52 + m.toNat := by
    rw [BitVec.toNat_append, ← Nat.shiftLeft_add_eq_or_of_lt m.isLt, Nat.shiftLeft_eq]
    rfl
  have hsign : Sign.ofBitVec (unpackSign (ofFields s e m)) = s := by
    rw [unpackSign_ofFields, ofBitVec_toBitVec]
  have hexponent : unpackExponent (ofFields s e m) = e := unpackExponent_packComponents
  have hmantissa : unpackMantissa (ofFields s e m) = m := unpackMantissa_packComponents
  have hbias : (Format.binary64.exponentBias : Int) + (52 : Nat) = 1075 := by decide
  unfold unpacked
  generalize ofFields s e m = b at hsign hexponent hmantissa ⊢
  subst hsign hexponent hmantissa
  unfold UnpackedFloat.unpack
  dsimp only
  by_cases hzero : unpackExponent b = 0#11
  · rw [if_pos hzero, if_pos hzero, hzero]
    rfl
  · rw [if_neg hzero, if_neg hzero, finite_congr _ (by omega) hnormal (congrArg (_ - ·) hbias)]

/-- What fields stand for, with either sign. -/
inductive Unpacks (e : BitVec 11) (m : BitVec 52) : (Sign → UnpackedFloat) → Prop
  | infinity : e = -1#11 → Unpacks e m .infinity
  | notANumber : e = -1#11 → Unpacks e m fun _ => .notANumber
  | zero : e = 0#11 → m = 0#52 → Unpacks e m .zero
  | subnormal (hm : 0 < m.toNat) : e = 0#11 → Unpacks e m (.finite · m.toNat (-1074) hm)
  | normal : e ≠ -1#11 →
      Unpacks e m (.finite · (2 ^ 52 + m.toNat) (e.toNat - 1075) (by omega))

/-- The sign plays no part in which kind of number fields stand for. -/
theorem exists_unpacks (e : BitVec 11) (m : BitVec 52) :
    ∃ f, Unpacks e m f ∧ ∀ s, unpacked s e m = f s := by
  by_cases hfull : e = -1#11
  · by_cases hm : m = 0#52
    · refine ⟨_, .infinity hfull, fun s => ?_⟩
      rw [unpacked_eq, if_pos hfull, if_pos hm]
    · refine ⟨_, .notANumber hfull, fun s => ?_⟩
      rw [unpacked_eq, if_pos hfull, if_neg hm]
  by_cases hzero : e = 0#11
  · by_cases hm : m = 0#52
    · refine ⟨_, .zero hzero hm, fun s => ?_⟩
      rw [unpacked_eq, if_neg hfull, if_pos hzero, dif_pos hm]
    · have hpos : 0 < m.toNat := Nat.pos_of_ne_zero fun h => hm (BitVec.eq_of_toNat_eq h)
      refine ⟨_, .subnormal hpos hzero, fun s => ?_⟩
      rw [unpacked_eq, if_neg hfull, if_pos hzero, dif_neg hm]
  · refine ⟨_, .normal hfull, fun s => ?_⟩
    rw [unpacked_eq, if_neg hfull, if_neg hzero]

/-- Negating flips the sign and leaves the other fields as they are. -/
theorem neg_unpacked (s : Sign) (e : BitVec 11) (m : BitVec 52) :
    (unpacked s e m).neg = unpacked (-s) e m := by
  obtain ⟨f, hf, heq⟩ := exists_unpacks e m
  rw [heq, heq]
  cases hf <;> rfl

/-- Infinities and not-a-numbers are what has an exponent of ones only. -/
theorem isFinite_unpacked (s : Sign) (e : BitVec 11) (m : BitVec 52) :
    (unpacked s e m).isFinite = true ↔ e ≠ -1#11 := by
  obtain ⟨f, hf, heq⟩ := exists_unpacks e m
  rw [heq]
  cases hf with
  | infinity h => exact iff_of_false Bool.false_ne_true (not_not_intro h)
  | notANumber h => exact iff_of_false Bool.false_ne_true (not_not_intro h)
  | zero h _ => exact iff_of_true rfl (by rw [h]; decide)
  | subnormal _ h => exact iff_of_true rfl (by rw [h]; decide)
  | normal h => exact iff_of_true rfl h

/-- A mantissa below the hidden bit is packed with exponent zero. -/
theorem pack_subnormal (s : Sign) {m : BitVec 52} (hm : 0 < m.toNat) :
    UnpackedFloat.pack Format.binary64 (.finite s m.toNat (-1074) hm) = ofFields s 0#11 m := by
  have hbits : m.toNat.log2 + 1 ≠ 53 := by
    have := (Nat.log2_lt (Nat.ne_of_gt hm)).2 m.isLt
    omega
  -- The mantissa has no implicit bit, so the exponent field is left at zero.
  change (if m.toNat.log2 + 1 = 53 then ofFields s (BitVec.ofNat 11 1) (BitVec.ofNat 52 m.toNat)
    else ofFields s 0#11 (BitVec.ofNat 52 m.toNat)) = _
  rw [if_neg hbits, BitVec.ofNat_toNat, BitVec.setWidth_eq]

/-- A mantissa with its hidden bit set is packed with the exponent that it had. -/
theorem pack_normal (s : Sign) {e : BitVec 11} (m : BitVec 52) (he : e ≠ -1#11) :
    UnpackedFloat.pack Format.binary64
      (.finite s (2 ^ 52 + m.toNat) (e.toNat - 1075) (by omega)) = ofFields s e m := by
  have hm := m.isLt
  have hlog : (2 ^ 52 + m.toNat).log2 = 52 := (Nat.log2_eq_iff (by omega)).2 (by omega)
  have hbits : (2 ^ 52 + m.toNat).log2 + 1 = 53 := by rw [hlog]
  have hexponent : ((e.toNat : Int) - 1075 + (1023 : Nat) + (52 : Nat)).toNat = e.toNat := by omega
  have hsmall : ¬2 ^ 11 ≤ e.toNat + 1 := by
    intro h
    apply he
    apply BitVec.eq_of_toNat_eq
    have hlt := e.isLt
    have : (-1#11).toNat = 2047 := by decide
    omega
  have hmantissa : BitVec.ofNat 52 (2 ^ 52 + m.toNat) = m := by
    apply BitVec.eq_of_toNat_eq
    rw [BitVec.toNat_ofNat]
    omega
  -- The exponent stays below the field that infinity has, and the implicit bit is cut off again.
  change (if 2 ^ 11 ≤ ((e.toNat : Int) - 1075 + (1023 : Nat) + (52 : Nat)).toNat + 1
    then packedInfinity Format.binary64 s
    else if (2 ^ 52 + m.toNat).log2 + 1 = 53
    then ofFields s (BitVec.ofNat 11 ((e.toNat : Int) - 1075 + (1023 : Nat) + (52 : Nat)).toNat)
      (BitVec.ofNat 52 (2 ^ 52 + m.toNat))
    else ofFields s 0#11 (BitVec.ofNat 52 (2 ^ 52 + m.toNat))) = _
  rw [hexponent, if_neg hsmall, if_pos hbits, hmantissa, BitVec.ofNat_toNat, BitVec.setWidth_eq]

/-- Packing undoes unpacking for finite numbers. A not-a-number does not keep its mantissa. -/
theorem pack_unpacked (s : Sign) {e : BitVec 11} (m : BitVec 52) (he : e ≠ -1#11) :
    UnpackedFloat.pack Format.binary64 (unpacked s e m) = ofFields s e m := by
  obtain ⟨f, hf, heq⟩ := exists_unpacks e m
  rw [heq]
  cases hf with
  | infinity h => exact absurd h he
  | notANumber h => exact absurd h he
  | zero h hm =>
    rw [h, hm]
    rfl
  | subnormal hm h =>
    rw [h]
    exact pack_subnormal s hm
  | normal h => exact pack_normal s m h

/-- Every bit pattern has its fields. -/
theorem exists_eq_ofFields (b : BitVec Format.binary64.numBits) : ∃ s e m, b = ofFields s e m := by
  have hb : b.toNat < 2 ^ 64 := b.isLt
  refine ⟨if 2 ^ 63 ≤ b.toNat then .negative else .positive, BitVec.ofNat 11 (b.toNat / 2 ^ 52),
    BitVec.ofNat 52 b.toNat, BitVec.eq_of_toNat_eq ?_⟩
  rw [toNat_ofFields, BitVec.toNat_ofNat, BitVec.toNat_ofNat]
  split
  · simp only [Sign.toBitVec, BitVec.toNat_ofNat]
    omega
  · simp only [Sign.toBitVec, BitVec.toNat_ofNat]
    omega

end Fields

/-! ## Magnitudes -/

section Magnitudes

variable {x : Float} {s : Sign} {e : BitVec 11} {m : BitVec 52}

theorem eq_of_toBits_eq {x y : Float} (h : x.toBits.toBitVec = y.toBits.toBitVec) : x = y := by
  obtain ⟨⟨⟨b⟩, hb⟩⟩ := x
  obtain ⟨⟨⟨c⟩, hc⟩⟩ := y
  obtain rfl : b = c := h
  rfl

theorem magnitude_of_fields (h : x.toBits.toBitVec = ofFields s e m) :
    magnitude x = e.toNat * 2 ^ 52 + m.toNat := by
  have he := e.isLt
  have hm := m.isLt
  unfold magnitude
  rw [UInt64.toNat, h, toNat_ofFields]
  change _ % 2 ^ 63 = _
  omega

theorem isNegative_of_fields (h : x.toBits.toBitVec = ofFields s e m) :
    isNegative x = true ↔ s = .negative := by
  have he := e.isLt
  have hm := m.isLt
  unfold isNegative
  rw [UInt64.toNat, h, toNat_ofFields]
  change decide (2 ^ 63 ≤ _) = true ↔ _
  cases s with
  | negative => simp [Sign.toBitVec]
  | positive =>
    simp only [Sign.toBitVec, BitVec.toNat_ofNat, decide_eq_true_eq, reduceCtorEq, iff_false]
    omega

theorem isFinite_of_fields (h : x.toBits.toBitVec = ofFields s e m) :
    x.isFinite = true ↔ e ≠ -1#11 := by
  change (UnpackedFloat.unpack Format.binary64 x.toBits.toBitVec).isFinite = true ↔ _
  rw [h]
  exact isFinite_unpacked s e m

theorem toBits_ofMagnitude (m : BitVec 52) (he : e ≠ -1#11) :
    (ofMagnitude (e.toNat * 2 ^ 52 + m.toNat)).toBits.toBitVec = ofFields .positive e m := by
  have hbits : (UInt64.ofNat (e.toNat * 2 ^ 52 + m.toNat)).toBitVec = ofFields .positive e m := by
    have he := e.isLt
    have hm := m.isLt
    apply BitVec.eq_of_toNat_eq
    rw [toNat_ofFields, UInt64.toBitVec_ofNat', BitVec.toNat_ofNat, Sign.toBitVec, BitVec.toNat_zero]
    omega
  change UnpackedFloat.pack Format.binary64 (UnpackedFloat.unpack Format.binary64
    (UInt64.ofNat (e.toNat * 2 ^ 52 + m.toNat)).toBitVec) = _
  rw [hbits]
  exact pack_unpacked .positive m he

theorem toBits_neg (h : x.toBits.toBitVec = ofFields s e m) (he : e ≠ -1#11) :
    (-x).toBits.toBitVec = ofFields (-s) e m := by
  change UnpackedFloat.pack Format.binary64
    (UnpackedFloat.unpack Format.binary64 x.toBits.toBitVec).neg = _
  rw [h]
  change UnpackedFloat.pack Format.binary64 (unpacked s e m).neg = _
  rw [neg_unpacked, pack_unpacked (-s) m he]

end Magnitudes

/-- Infinity has the least magnitude that is not a finite number's. -/
theorem magnitude_lt_infinity {x : Float} (h : x.isFinite = true) : magnitude x < infinity := by
  obtain ⟨s, e, m, hbits⟩ := exists_eq_ofFields x.toBits.toBitVec
  have he := (isFinite_of_fields hbits).1 h
  have hlt : e.toNat ≠ 2047 := fun heq => he (BitVec.eq_of_toNat_eq heq)
  have hm := m.isLt
  have hmax := e.isLt
  rw [magnitude_of_fields hbits]
  change _ < 2047 * 2 ^ 52
  omega

/-- A finite number is what its magnitude stands for, negated if it is negative. -/
theorem eq_ofMagnitude {x : Float} (h : x.isFinite = true) :
    x = if isNegative x = true then -ofMagnitude (magnitude x) else ofMagnitude (magnitude x) := by
  obtain ⟨s, e, m, hbits⟩ := exists_eq_ofFields x.toBits.toBitVec
  have he := (isFinite_of_fields hbits).1 h
  have hpositive := toBits_ofMagnitude m he
  rw [← magnitude_of_fields hbits] at hpositive
  apply eq_of_toBits_eq
  cases s with
  | negative =>
    rw [if_pos ((isNegative_of_fields hbits).2 rfl), toBits_neg hpositive he, hbits]
    rfl
  | positive =>
    rw [if_neg (mt (isNegative_of_fields hbits).1 nofun), hpositive, hbits]

/-- Every magnitude below infinity's is the magnitude of a finite number. -/
theorem isFinite_ofMagnitude {m : Nat} (h : m < infinity) : (ofMagnitude m).isFinite = true := by
  have hlt : m < 2047 * 2 ^ 52 := h
  have hdiv : m / 2 ^ 52 < 2047 := Nat.div_lt_of_lt_mul (by omega)
  have he : BitVec.ofNat 11 (m / 2 ^ 52) ≠ -1#11 := by
    intro heq
    have := congrArg BitVec.toNat heq
    simp only [BitVec.toNat_ofNat, BitVec.toNat_neg] at this
    omega
  have hbits := toBits_ofMagnitude (BitVec.ofNat 52 m) he
  rw [BitVec.toNat_ofNat, BitVec.toNat_ofNat, Nat.mod_eq_of_lt (by omega : m / 2 ^ 52 < 2 ^ 11),
    Nat.div_add_mod'] at hbits
  exact (isFinite_of_fields hbits).2 he

end Scriptlet.Binary64
