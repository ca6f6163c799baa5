import Accessibility.Text.Utf8

/-! # Decoding what is encoded

A character is encoded in one to four bytes, and the first of them tells how many follow and in which range the second
one lies. That range holds the second byte of every character there is. -/

namespace Accessibility.Utf8

theorem toNat_ofNat {n : Nat} (h : n < 0x100) : (UInt8.ofNat n).toNat = n :=
  UInt8.toNat_ofNat_of_lt h

/-- The numbers of characters end at the last code point and leave out the surrogates. -/
theorem toNat_bounds (c : Char) : c.toNat < 0xD800 ∨ 0xDFFF < c.toNat ∧ c.toNat < 0x110000 :=
  c.valid

/-! ## Bytes -/

theorem decodeFrom_whole {b : UInt8} {c : Char} (h : lead b = .whole c) (rest : List UInt8) :
    decodeFrom none (b :: rest) = c :: decodeFrom none rest := by
  simp only [decodeFrom, begin, h, List.singleton_append]

theorem decodeFrom_start {b : UInt8} {p : Pending} (h : lead b = .start p) (rest : List UInt8) :
    decodeFrom none (b :: rest) = decodeFrom (some p) rest := by
  simp only [decodeFrom, begin, h, List.nil_append]

section

variable {bits low high d : Nat} (hd : d < 0x40) (hlow : low ≤ 0x80 + d) (hhigh : 0x80 + d ≤ high)

include hd hlow hhigh

/-- A byte that continues a character brings six bits. -/
theorem resume_ofNat (missing : Nat) :
    resume { bits, missing, low, high } (UInt8.ofNat (0x80 + d)) =
      if missing = 1 then ([Char.ofNat (bits * 64 + d)], none)
      else ([], some { bits := bits * 64 + d, missing := missing - 1 }) := by
  have hbyte : (UInt8.ofNat (0x80 + d)).toNat = 0x80 + d := toNat_ofNat (by omega)
  simp only [resume, hbyte, hlow, hhigh, and_self, if_true, Nat.add_sub_cancel_left]

theorem decodeFrom_last (rest : List UInt8) :
    decodeFrom (some { bits, missing := 1, low, high }) (UInt8.ofNat (0x80 + d) :: rest) =
      Char.ofNat (bits * 64 + d) :: decodeFrom none rest := by
  rw [decodeFrom, resume_ofNat hd hlow hhigh, if_pos rfl, List.singleton_append]

theorem decodeFrom_next (missing : Nat) (rest : List UInt8) :
    decodeFrom (some { bits, missing := missing + 2, low, high }) (UInt8.ofNat (0x80 + d) :: rest) =
      decodeFrom (some { bits := bits * 64 + d, missing := missing + 1 }) rest := by
  rw [decodeFrom, resume_ofNat hd hlow hhigh, if_neg (by omega)]
  rfl

end

/-! ## First bytes -/

theorem lead_of_lt {n : Nat} (h : n < 0x80) : lead (UInt8.ofNat n) = .whole (Char.ofNat n) := by
  rw [lead, toNat_ofNat (by omega)]
  exact if_pos h

theorem lead_two {n : Nat} (hlow : 0x80 ≤ n) (hhigh : n < 0x800) :
    lead (UInt8.ofNat (0xC0 + n / 0x40)) = .start { bits := n / 0x40, missing := 1 } := by
  rw [lead, toNat_ofNat (by omega)]
  rw [if_neg (by omega), if_neg (by omega), if_pos (by omega), Nat.add_sub_cancel_left]

theorem lead_three {n : Nat} (hlow : 0x800 ≤ n) (hhigh : n < 0x10000) (hchar : n < 0xD800 ∨ 0xDFFF < n) :
    ∃ low high, lead (UInt8.ofNat (0xE0 + n / 0x1000)) = .start { bits := n / 0x1000, missing := 2, low, high } ∧
      low ≤ 0x80 + n / 0x40 % 0x40 ∧ 0x80 + n / 0x40 % 0x40 ≤ high := by
  rw [lead, toNat_ofNat (by omega)]
  rw [if_neg (by omega), if_neg (by omega), if_neg (by omega), Nat.add_sub_cancel_left]
  by_cases hfirst : n / 0x1000 = 0
  · exact ⟨_, _, by rw [if_pos (by omega), hfirst], by omega, by omega⟩
  · rw [if_neg (by omega)]
    by_cases hbefore : n / 0x1000 = 13
    · exact ⟨_, _, by rw [if_pos (by omega), hbefore], by omega, by omega⟩
    · exact ⟨_, _, by rw [if_neg (by omega), if_pos (by omega)], by omega, by omega⟩

theorem lead_four {n : Nat} (hlow : 0x10000 ≤ n) (hhigh : n < 0x110000) :
    ∃ low high, lead (UInt8.ofNat (0xF0 + n / 0x40000)) = .start { bits := n / 0x40000, missing := 3, low, high } ∧
      low ≤ 0x80 + n / 0x1000 % 0x40 ∧ 0x80 + n / 0x1000 % 0x40 ≤ high := by
  rw [lead, toNat_ofNat (by omega)]
  rw [if_neg (by omega), if_neg (by omega), if_neg (by omega), if_neg (by omega), if_neg (by omega), if_neg (by omega),
    Nat.add_sub_cancel_left]
  by_cases hfirst : n / 0x40000 = 0
  · exact ⟨_, _, by rw [if_pos (by omega), hfirst], by omega, by omega⟩
  · rw [if_neg (by omega)]
    by_cases hlast : n / 0x40000 = 4
    · exact ⟨_, _, by rw [if_neg (by omega), if_pos (by omega), hlast], by omega, by omega⟩
    · exact ⟨_, _, by rw [if_pos (by omega)], by omega, by omega⟩

/-! ## Characters -/

theorem decodeFrom_encodeChar (c : Char) (rest : List UInt8) :
    decodeFrom none (encodeChar c ++ rest) = c :: decodeFrom none rest := by
  have hbounds := toNat_bounds c
  have hc : Char.ofNat c.toNat = c := Char.ofNat_toNat c
  unfold encodeChar
  generalize c.toNat = n at hbounds hc
  dsimp only
  -- The bytes of each length are read in turn; what is left is that their bits make up the number again.
  by_cases hone : n < 0x80
  · rw [if_pos hone, List.singleton_append, decodeFrom_whole (lead_of_lt hone), hc]
  by_cases htwo : n < 0x800
  · rw [if_neg hone, if_pos htwo, List.cons_append, decodeFrom_start (lead_two (by omega) htwo), List.singleton_append,
      Nat.div_one, decodeFrom_last (by omega) (by omega) (by omega), Nat.div_add_mod', hc]
  by_cases hthree : n < 0x10000
  · obtain ⟨low, high, hlead, hlow, hhigh⟩ := lead_three (by omega) hthree (by omega)
    have hn : (n / 0x1000 * 64 + n / 0x40 % 0x40) * 64 + n % 0x40 = n := by omega
    rw [if_neg hone, if_neg htwo, if_pos hthree, List.cons_append, decodeFrom_start hlead, List.cons_append,
      decodeFrom_next (by omega) hlow hhigh, List.singleton_append, Nat.div_one,
      decodeFrom_last (by omega) (by omega) (by omega), hn, hc]
  · obtain ⟨low, high, hlead, hlow, hhigh⟩ := lead_four (n := n) (by omega) (by omega)
    have hn : ((n / 0x40000 * 64 + n / 0x1000 % 0x40) * 64 + n / 0x40 % 0x40) * 64 + n % 0x40 = n := by omega
    rw [if_neg hone, if_neg htwo, if_neg hthree, List.cons_append, decodeFrom_start hlead, List.cons_append,
      decodeFrom_next (by omega) hlow hhigh, List.cons_append, decodeFrom_next (by omega) (by omega) (by omega),
      List.singleton_append, Nat.div_one, decodeFrom_last (by omega) (by omega) (by omega), hn, hc]

theorem decode_encode (t : Text) : decode (encode t) = t := by
  unfold decode encode
  induction t with
  | nil => rfl
  | cons c rest ih => rw [List.flatMap_cons, decodeFrom_encodeChar, ih]

end Accessibility.Utf8
