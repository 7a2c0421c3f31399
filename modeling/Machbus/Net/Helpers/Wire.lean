import Machbus.Net.Model.Frame
/-!
# What an identifier carries

`Identifier.encode` packs six fields by shifting and or-ing, and the
accessors mask them out again. `encode_raw` says once what the packed
word is, and every accessor is then arithmetic.
-/

namespace Machbus

open Nat

theorem and_ff (n : ℕ) : n &&& 0xFF = n % 256 := and_two_pow_sub_one_eq_mod n 8

theorem and_one (n : ℕ) : n &&& 0x01 = n % 2 := and_two_pow_sub_one_eq_mod n 1

theorem and_seven (n : ℕ) : n &&& 0x07 = n % 8 := and_two_pow_sub_one_eq_mod n 3

theorem and_raw (n : ℕ) : n &&& 0x1FFFFFFF = n % 2 ^ 29 := and_two_pow_sub_one_eq_mod n 29

theorem pgnPduFormat_eq (pgn : ℕ) : pgnPduFormat pgn = pgn / 256 % 256 := by
  rw [pgnPduFormat, and_ff, shiftRight_eq_div_pow]

theorem pgnNormalize_eq (pgn : ℕ) :
    pgnNormalize pgn = if pgn / 256 % 256 < 240 then pgn / 256 * 256 else pgn := by
  rw [pgnNormalize, pgnPduFormat_eq, shiftLeft_eq, shiftRight_eq_div_pow]

theorem Priority.asU8_lt (p : Priority) : p.asU8 < 8 := by cases p <;> decide

@[simp] theorem Priority.fromU8_asU8 (p : Priority) : Priority.fromU8 p.asU8 = p := by
  cases p <;> rfl

namespace Identifier

variable {prio : Priority} {pgn : ℕ} {src dst : Address}

/-- The PS byte of an encoded identifier. -/
def psByte (pgn : ℕ) (dst : Address) : ℕ := if pgn / 256 % 256 < 240 then dst.toNat else pgn % 256

theorem psByte_lt (pgn : ℕ) (dst : Address) : psByte pgn dst < 256 := by
  unfold psByte
  split
  · exact dst.toNat_lt
  · exact mod_lt _ (by decide)

/-- **The packed word.** The six fields do not overlap, so the ors are a
sum. -/
theorem encode_raw : (encode prio pgn src dst).raw =
      prio.asU8 * 2 ^ 26 + pgn / 2 ^ 17 % 2 * 2 ^ 25 + pgn / 2 ^ 16 % 2 * 2 ^ 24 +
        pgn / 256 % 256 * 2 ^ 16 + psByte pgn dst * 2 ^ 8 + src.toNat := by
  have hp := prio.asU8_lt
  have hs := src.toNat_lt
  have hps := psByte_lt pgn dst
  -- normalisation keeps everything above the low byte
  have hnorm : pgnNormalize pgn / 256 = pgn / 256 := by
    rw [pgnNormalize_eq]; split <;> omega
  have hpf : pgnNormalize pgn / 256 % 256 = pgn / 256 % 256 := by rw [hnorm]
  have hdp : pgnNormalize pgn / 2 ^ 16 % 2 = pgn / 2 ^ 16 % 2 := by omega
  have hedp : pgnNormalize pgn / 2 ^ 17 % 2 = pgn / 2 ^ 17 % 2 := by omega
  have hb : (if pgn / 256 % 256 < 240 then dst.toNat else pgnNormalize pgn % 256) =
      psByte pgn dst := by
    unfold psByte
    split
    · rfl
    · rw [pgnNormalize_eq, if_neg (by assumption)]
  simp only [encode, fromRaw, and_ff, and_one, and_seven, and_raw, shiftRight_eq_div_pow,
    shiftLeft_eq]
  rw [hpf, hdp, hedp, hb, mod_eq_of_lt hp]
  generalize hE : pgn / 2 ^ 17 % 2 = E
  generalize hD : pgn / 2 ^ 16 % 2 = D
  generalize hF : pgn / 256 % 256 = F
  generalize psByte pgn dst = B at hps ⊢
  generalize prio.asU8 = p at hp ⊢
  generalize src.toNat = a at hs ⊢
  have h1 : p * 2 ^ 26 ||| E * 2 ^ 25 = p * 2 ^ 26 + E * 2 ^ 25 :=
    or_eq_add (i := 26) (by omega) (by omega)
  have h2 : (p * 2 ^ 26 + E * 2 ^ 25) ||| D * 2 ^ 24 = p * 2 ^ 26 + E * 2 ^ 25 + D * 2 ^ 24 :=
    or_eq_add (i := 25) (by omega) (by omega)
  have h3 : (p * 2 ^ 26 + E * 2 ^ 25 + D * 2 ^ 24) ||| F * 2 ^ 16 =
      p * 2 ^ 26 + E * 2 ^ 25 + D * 2 ^ 24 + F * 2 ^ 16 :=
    or_eq_add (i := 24) (by omega) (by omega)
  have h4 : (p * 2 ^ 26 + E * 2 ^ 25 + D * 2 ^ 24 + F * 2 ^ 16) ||| B * 256 =
      p * 2 ^ 26 + E * 2 ^ 25 + D * 2 ^ 24 + F * 2 ^ 16 + B * 256 :=
    or_eq_add (i := 16) (by omega) (by omega)
  have h5 : (p * 2 ^ 26 + E * 2 ^ 25 + D * 2 ^ 24 + F * 2 ^ 16 + B * 256) ||| a =
      p * 2 ^ 26 + E * 2 ^ 25 + D * 2 ^ 24 + F * 2 ^ 16 + B * 256 + a :=
    or_eq_add (i := 8) (by omega) (by omega)
  rw [h1, h2, h3, h4]
  omega

@[simp] theorem source_encode : (encode prio pgn src dst).source = src := by
  have hs := src.toNat_lt
  rw [source, and_ff, encode_raw]
  apply UInt8.toNat_inj.mp
  rw [UInt8.toNat_ofNat']
  omega

@[simp] theorem priority_encode : (encode prio pgn src dst).priority = prio := by
  have hp := prio.asU8_lt
  have hs := src.toNat_lt
  have hps := psByte_lt pgn dst
  have hval : (encode prio pgn src dst).raw / 2 ^ 26 % 8 = prio.asU8 := by
    rw [encode_raw]; omega
  rw [priority, and_seven, shiftRight_eq_div_pow, hval, Priority.fromU8_asU8]

theorem pduFormat_encode : (encode prio pgn src dst).pduFormat = pgn / 256 % 256 := by
  have hs := src.toNat_lt
  have hps := psByte_lt pgn dst
  rw [pduFormat, and_ff, encode_raw]
  omega

theorem pduSpecific_encode :
    (encode prio pgn src dst).pduSpecific = UInt8.ofNat (psByte pgn dst) := by
  have hs := src.toNat_lt
  have hps := psByte_lt pgn dst
  rw [pduSpecific, and_ff, encode_raw]
  congr 1
  omega

/-- **Addressed or broadcast.** The destination is kept by a PDU1 PGN and
replaced by the global one in a PDU2 PGN. -/
theorem destination_encode : (encode prio pgn src dst).destination =
      if pgn / 256 % 256 < 240 then dst else broadcastAddress := by
  rw [destination, isPdu2, pduFormat_encode]
  by_cases h : pgn / 256 % 256 < 240
  · rw [if_pos h, if_neg (by simpa using h), pduSpecific_encode, psByte, if_pos h]
    exact UInt8.ofNat_toNat
  · rw [if_neg h, if_pos (by simpa using Nat.le_of_not_lt h)]

theorem pgn_encode (h : pgnIsValid pgn = true) :
    (encode prio pgn src dst).pgn = pgnNormalize pgn := by
  have hv : pgn ≤ 0x3FFFF := by simpa [pgnIsValid] using h
  have hs := src.toNat_lt
  have hps := psByte_lt pgn dst
  have hdp : (encode prio pgn src dst).raw / 2 ^ 24 % 2 = pgn / 2 ^ 16 % 2 := by
    rw [encode_raw]; omega
  have hedp : (encode prio pgn src dst).raw / 2 ^ 25 % 2 = pgn / 2 ^ 17 % 2 := by
    rw [encode_raw]; omega
  have hlow : psByte pgn dst % 256 = psByte pgn dst := mod_eq_of_lt hps
  simp only [Identifier.pgn, pduFormat_encode, and_one, shiftRight_eq_div_pow, hdp, hedp,
    shiftLeft_eq, pduSpecific_encode, UInt8.toNat_ofNat', pgnNormalize_eq]
  have h1 : pgn / 2 ^ 17 % 2 * 2 ^ 17 ||| pgn / 2 ^ 16 % 2 * 2 ^ 16 =
      pgn / 2 ^ 17 % 2 * 2 ^ 17 + pgn / 2 ^ 16 % 2 * 2 ^ 16 :=
    or_eq_add (i := 17) (by omega) (by omega)
  have h2 : (pgn / 2 ^ 17 % 2 * 2 ^ 17 + pgn / 2 ^ 16 % 2 * 2 ^ 16) ||| pgn / 256 % 256 * 2 ^ 8 =
      pgn / 2 ^ 17 % 2 * 2 ^ 17 + pgn / 2 ^ 16 % 2 * 2 ^ 16 + pgn / 256 % 256 * 2 ^ 8 :=
    or_eq_add (i := 16) (by omega) (by omega)
  rw [h1, h2]
  split
  · omega
  rename_i h240
  rw [or_eq_add (i := 8) (by omega) (by omega), psByte, if_neg h240]
  omega

end Identifier

/-! ## Bytes of a frame -/

theorem toNat_ofNat_of_le {n : ℕ} (h : n ≤ 255) : (UInt8.ofNat n).toNat = n := by
  exact mod_eq_of_lt (by omega)

/-- Eight bytes given in full are not padded. -/
theorem Bytes8.tail_padded (b : UInt8) {block : List UInt8} (h : block.length = 7) :
    (Bytes8.padded (b :: block)).tail = block := by
  obtain ⟨x₁, x₂, x₃, x₄, x₅, x₆, x₇, rfl⟩ : ∃ x₁ x₂ x₃ x₄ x₅ x₆ x₇,
      block = [x₁, x₂, x₃, x₄, x₅, x₆, x₇] := by
    match block, h with
    | [x₁, x₂, x₃, x₄, x₅, x₆, x₇], _ => exact ⟨x₁, x₂, x₃, x₄, x₅, x₆, x₇, rfl⟩
  rfl

end Machbus
