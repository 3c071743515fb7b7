import Mathlib
import Templating.Number.Binary64

/-!
# The bits of a float and what they stand for

* `pack_unpack`: a float is made of what it stands for.
* `Canonical`, `canonical_of_unpack`: the mantissa and the exponent of a finite float.
* `unpack_pack`: a float stands for the mantissa and the exponent that it is made of.
-/

namespace Templating.Binary64

open Float.Model
open Float.Model.UnpackedFloat

/-- The mantissa and the exponent of a finite float: 53 bits, or the least exponent. -/
structure Canonical (m : Nat) (e : Int) : Prop where
  pos : 0 < m
  lt : m < 2 ^ 53
  least : -1074 ≤ e
  greatest : e ≤ 971
  full : 2 ^ 52 ≤ m ∨ e = -1074

theorem toBitVec_ofBitVec (b : BitVec 1) : (Sign.ofBitVec b).toBitVec = b := by
  revert b
  decide

/-- Bits are a sign, an exponent and a mantissa. -/
theorem packComponents_unpack (b : BitVec 64) :
    packComponents .binary64 (.ofBitVec (@unpackSign .binary64 b)) (@unpackExponent .binary64 b)
      (@unpackMantissa .binary64 b) = b := by
  rw [packComponents, toBitVec_ofBitVec]
  refine BitVec.eq_of_getLsbD_eq fun i hi => ?_
  simp only [BitVec.getLsbD_append, unpackMantissa, unpackExponent, unpackSign,
    BitVec.getLsbD_cast, BitVec.getLsbD_extractLsb]
  change i < 64 at hi
  by_cases h : i < 52
  · simp [h]
  by_cases h' : i < 63
  · simp [h, show i - 52 < 11 by omega, show 52 + (i - 52) = i by omega]
  · obtain rfl : i = 63 := by omega
    simp
    exact BitVec.getLsbD_eq_getElem hi

/-- The implicit bit in front of the others. -/
theorem toNat_implicit (m : BitVec 52) : (1#1 ++ m).toNat = 2 ^ 52 + m.toNat := by
  rw [BitVec.toNat_append, ← Nat.shiftLeft_add_eq_or_of_lt m.isLt, Nat.shiftLeft_eq]
  rfl

theorem log2_implicit (m : BitVec 52) : (2 ^ 52 + m.toNat).log2 = 52 := by
  have hm := m.isLt
  rw [Nat.log2_eq_iff (by omega)]
  omega

theorem log2_lt (m : BitVec 52) : m.toNat.log2 + 1 ≠ 53 := by
  have hm := m.isLt
  by_cases h : m.toNat = 0
  · simp [h]
  · have := (Nat.log2_lt h).2 hm
    omega

/-- Less than all exponents of finite numbers, as the exponent of a number. -/
theorem toNat_lt_of_ne {v : BitVec 11} (h : v ≠ -1#11) : v.toNat + 1 < 2 ^ 11 := by
  have hlt := v.isLt
  have hne : v.toNat ≠ 2047 := fun heq => h (BitVec.eq_of_toNat_eq (by rw [heq]; rfl))
  omega

theorem pack_normal {s : Sign} {v : BitVec 11} {m : BitVec 52} (hv : v ≠ -1#11)
    (h : 0 < (1#1 ++ m).toNat) :
    UnpackedFloat.pack .binary64 (.finite s (1#1 ++ m).toNat ((v.toNat : Int) - 1075) h) =
      packComponents .binary64 s v m := by
  have hlt := toNat_lt_of_ne hv
  have hexponent : ((v.toNat : Int) - 1075 + 1023 + 52).toNat = v.toNat := by omega
  have hmantissa : BitVec.ofNat 52 (2 ^ 52 + m.toNat) = m := by
    refine BitVec.eq_of_toNat_eq ?_
    rw [BitVec.toNat_ofNat, Nat.add_mod_left, Nat.mod_eq_of_lt m.isLt]
  change (if 2 ^ 11 ≤ ((v.toNat : Int) - 1075 + 1023 + 52).toNat + 1 then _
    else if (1#1 ++ m).toNat.log2 + 1 = 53 then _ else _) = _
  rw [hexponent, if_neg (by omega), toNat_implicit, log2_implicit, if_pos rfl]
  change packComponents .binary64 s (BitVec.ofNat 11 ((v.toNat : Int) - 1075 + 1023 + 52).toNat)
    (BitVec.ofNat 52 _) = _
  rw [hexponent, hmantissa, BitVec.ofNat_toNat]
  rfl

theorem pack_subnormal {s : Sign} {m : BitVec 52} (h : 0 < m.toNat) :
    UnpackedFloat.pack .binary64 (.finite s m.toNat (-1074) h) =
      packComponents .binary64 s 0#11 m := by
  change (if m.toNat.log2 + 1 = 53 then _ else _) = _
  rw [if_neg (log2_lt m), BitVec.ofNat_toNat]
  rfl

/-- Valid bits are those of what they stand for. -/
theorem pack_unpackBits {b : BitVec 64} (hb : Format.binary64.Valid b) :
    UnpackedFloat.pack .binary64 (UnpackedFloat.unpack .binary64 b) = b := by
  have hself := packComponents_unpack b
  rw [UnpackedFloat.unpack]
  simp only
  split
  · rename_i hexponent
    split
    · rename_i hmantissa
      rw [hexponent, hmantissa] at hself
      exact hself
    · rename_i hmantissa
      exact (hb.eq_packedNaN hexponent hmantissa).symm
  split
  · rename_i hexponent
    split
    · rename_i hmantissa
      rw [hexponent, hmantissa] at hself
      exact hself
    · rw [hexponent] at hself ⊢
      exact (pack_subnormal _).trans hself
  · rename_i hexponent _
    exact (pack_normal hexponent _).trans hself

/-- **A float is made of what it stands for.** -/
theorem pack_unpack (x : Float) : Float.ofModel (Float.Model.pack x.toModel.unpack) = x := by
  obtain ⟨⟨bits, hvalid⟩⟩ := x
  simp only [Float.Model.pack, Float.Model.unpack, pack_unpackBits hvalid]

theorem Canonical.normal {v : BitVec 11} {m : BitVec 52} (hv : v ≠ -1#11) (hv' : v ≠ 0#11) :
    Canonical (2 ^ 52 + m.toNat) ((v.toNat : Int) - 1075) := by
  have hlt := toNat_lt_of_ne hv
  have hm := m.isLt
  have hne : v.toNat ≠ 0 := fun h => hv' (BitVec.eq_of_toNat_eq h)
  exact ⟨by omega, by omega, by omega, by omega, .inl (by omega)⟩

theorem Canonical.subnormal {m : BitVec 52} (h : 0 < m.toNat) : Canonical m.toNat (-1074) :=
  ⟨h, by have := m.isLt; omega, by decide, by decide, .inr rfl⟩

/-- The mantissa and the exponent of a finite float. -/
theorem canonical_of_unpack {x : Float} {s : Sign} {m : Nat} {e : Int} {h : 0 < m}
    (hx : x.toModel.unpack = .finite s m e h) : Canonical m e := by
  rw [Float.Model.unpack, UnpackedFloat.unpack] at hx
  simp only at hx
  split at hx
  · split at hx <;> cases hx
  split at hx
  · rename_i hexponent
    split at hx
    · cases hx
    · cases hx
      rw [hexponent]
      exact .subnormal ‹_›
  · rename_i hexponent hexponent'
    cases hx
    rw [toNat_implicit]
    exact .normal hexponent hexponent'

/-! ## From a mantissa and an exponent to a float -/

theorem unpackSign_packComponents (s : Sign) (v : BitVec 11) (m : BitVec 52) :
    @unpackSign .binary64 (packComponents .binary64 s v m) = s.toBitVec := by
  refine BitVec.eq_of_getLsbD_eq fun i hi => ?_
  obtain rfl : i = 0 := by omega
  have hlast : (s.toBitVec ++ v ++ m).getLsbD 63 = s.toBitVec.getLsbD 0 := by
    rw [BitVec.getLsbD_append, BitVec.getLsbD_append]
    simp
  simp only [unpackSign, BitVec.getLsbD_cast, BitVec.getLsbD_extractLsb]
  exact hlast

theorem ofBitVec_toBitVec (s : Sign) : Sign.ofBitVec s.toBitVec = s := by
  cases s <;> rfl

/-- A canonical mantissa and exponent are packed without loss. -/
theorem unpackBits_pack {m : Nat} {e : Int} (s : Sign) (hc : Canonical m e) :
    UnpackedFloat.unpack .binary64 (UnpackedFloat.pack .binary64 (.finite s m e hc.pos)) =
      .finite s m e hc.pos := by
  have hlt := hc.lt
  have hleast := hc.least
  have hgreatest := hc.greatest
  -- with a full mantissa the first bit is left out, and the exponent is not the least one
  by_cases hfull : 2 ^ 52 ≤ m
  · obtain ⟨low, rfl⟩ : ∃ low : BitVec 52, m = (1#1 ++ low).toNat := by
      refine ⟨BitVec.ofNat 52 (m - 2 ^ 52), ?_⟩
      rw [toNat_implicit, BitVec.toNat_ofNat, Nat.mod_eq_of_lt (by omega)]
      omega
    obtain ⟨v, rfl⟩ : ∃ v : BitVec 11, e = (v.toNat : Int) - 1075 := by
      refine ⟨BitVec.ofNat 11 (e + 1075).toNat, ?_⟩
      rw [BitVec.toNat_ofNat, Nat.mod_eq_of_lt (by omega)]
      omega
    have hv : v ≠ -1#11 := by
      rintro rfl
      exact absurd hgreatest (by decide)
    have hv' : v ≠ 0#11 := by
      rintro rfl
      exact absurd hleast (by decide)
    rw [pack_normal hv hc.pos, UnpackedFloat.unpack]
    simp only [unpackMantissa_packComponents, unpackExponent_packComponents,
      unpackSign_packComponents, ofBitVec_toBitVec]
    rw [if_neg hv, if_neg hv']
    rfl
  · obtain rfl := hc.full.resolve_left hfull
    obtain ⟨low, rfl⟩ : ∃ low : BitVec 52, m = low.toNat := by
      refine ⟨BitVec.ofNat 52 m, ?_⟩
      rw [BitVec.toNat_ofNat, Nat.mod_eq_of_lt (by omega)]
    have hlow : low ≠ 0#52 := by
      rintro rfl
      exact absurd hc.pos (by decide)
    rw [pack_subnormal hc.pos, UnpackedFloat.unpack]
    simp only [unpackMantissa_packComponents, unpackExponent_packComponents,
      unpackSign_packComponents, ofBitVec_toBitVec]
    rw [if_neg (by decide), if_pos trivial, dif_neg hlow]
    rfl

/-- **A float stands for what it is made of**, if that is canonical. -/
theorem unpack_pack {m : Nat} {e : Int} (s : Sign) (hc : Canonical m e) :
    (Float.ofModel (Float.Model.pack (.finite s m e hc.pos))).toModel.unpack =
      .finite s m e hc.pos :=
  unpackBits_pack s hc

end Templating.Binary64
