import DebugHost.Text.Utf8

/-! # Reading what UTF-8 writes

The octets of a text are those of its characters, one character after the other (`encode_eq`), and
`next` reads the octets of a character as that character, whatever stands behind (`next_char`). -/

namespace DebugHost.Text.Utf8

/-! ### Octets of a text -/

/-- The octets of characters. -/
def octets (cs : List Char) : List UInt8 := cs.flatMap String.utf8EncodeChar

theorem octets_append (cs ds : List Char) : octets (cs ++ ds) = octets cs ++ octets ds :=
  List.flatMap_append

theorem octets_cons (c : Char) (cs : List Char) :
    octets (c :: cs) = String.utf8EncodeChar c ++ octets cs :=
  List.flatMap_cons

/-- A basic Latin character is one octet. -/
theorem octets_latin {c : Char} (h : c.toNat < 128) (cs : List Char) :
    octets (c :: cs) = UInt8.ofNat c.toNat :: octets cs := by
  have hc : c.val.toNat ≤ 127 := Nat.le_of_lt_succ h
  rw [octets_cons, String.utf8EncodeChar, if_pos hc]
  rfl

theorem toList_loop (bs : ByteArray) (i : Nat) (acc : List UInt8) :
    ByteArray.toList.loop bs i acc = acc.reverse ++ bs.data.toList.drop i := by
  fun_induction ByteArray.toList.loop bs i acc with
  | case1 i acc h ih =>
    have hi : i < bs.data.toList.length := h
    rw [ih, List.drop_eq_getElem_cons hi, List.reverse_cons, List.append_assoc]
    have hget : bs.get! i = bs.data.toList[i] := getElem!_pos bs.data i h
    rw [hget]
    rfl
  | case2 i acc h =>
    rw [List.drop_eq_nil_of_le (Nat.le_of_not_lt h), List.append_nil]

/-- The octets of a text are those of its characters. -/
theorem encode_ofList (cs : List Char) : encode (String.ofList cs) = octets cs := by
  have h : (String.ofList cs).toUTF8 = (cs.flatMap String.utf8EncodeChar).toByteArray :=
    String.toByteArray_ofList
  unfold encode
  rw [h, ByteArray.toList, toList_loop, List.toList_data_toByteArray]
  rfl

theorem encode_eq (s : String) : encode s = octets s.toList := by
  rw [← encode_ofList, String.ofList_toList]

/-! ### Reading a character -/

theorem toNat_octet {k : Nat} (h : k < 256) : (UInt8.ofNat k).toNat = k := by
  rw [UInt8.toNat_ofNat']
  exact Nat.mod_eq_of_lt h

theorem le_octet {m k : Nat} (hm : m ≤ k) (h : k < 256) : m ≤ (UInt8.ofNat k).toNat := by
  rwa [toNat_octet h]

/-- An octet in its range adds six bits. -/
theorem follow_octet {more acc k : Nat} {low high : UInt8} {bs : List UInt8} (hl : low.toNat ≤ k)
    (hh : k ≤ high.toNat) :
    follow (more + 1) low high acc (UInt8.ofNat k :: bs) =
      follow more 0x80 0xBF (acc * 64 + (k - 0x80)) bs := by
  have hk : (UInt8.ofNat k).toNat = k := toNat_octet (Nat.lt_of_le_of_lt hh high.toNat_lt)
  have hl' : low ≤ UInt8.ofNat k := by rwa [UInt8.le_iff_toNat_le, hk]
  have hh' : UInt8.ofNat k ≤ high := by rwa [UInt8.le_iff_toNat_le, hk]
  rw [follow, if_pos ⟨hl', hh'⟩, hk]

/-- An octet among those that follow the first two. -/
theorem follow_last {more acc k : Nat} {bs : List UInt8} (h : k < 64) :
    follow (more + 1) 0x80 0xBF acc (UInt8.ofNat (k + 128) :: bs) =
      follow more 0x80 0xBF (acc * 64 + k) bs := by
  have hl : (0x80 : UInt8).toNat ≤ k + 128 := Nat.le_add_left 128 k
  have hh : k + 128 ≤ (0xBF : UInt8).toNat := Nat.add_le_add_right (Nat.le_of_lt_succ h) 128
  rw [follow_octet hl hh, Nat.add_sub_cancel]

/-- A first octet that promises others reads what they spell. -/
theorem next_lead {k n : Nat} {l : Lead} {bs rest : List UInt8} (hk : 128 ≤ k) (hk' : k < 256)
    (hl : Lead.of? (UInt8.ofNat k) = some l)
    (hf : follow l.more l.low l.high l.bits bs = (some n, rest)) :
    next (UInt8.ofNat k) bs = (some (Char.ofNat n), rest) := by
  have h : ¬ UInt8.ofNat k < 0x80 := by
    rw [UInt8.lt_iff_toNat_lt, toNat_octet hk']
    exact Nat.not_lt.mpr hk
  rw [next, if_neg h, hl]
  simp only [hf, Option.map_some]

theorem next_one {v : Nat} (rest : List UInt8) (hv : v ≤ 127) :
    next (UInt8.ofNat v) rest = (some (Char.ofNat v), rest) := by
  have hk : (UInt8.ofNat v).toNat = v := toNat_octet (by omega)
  have h : UInt8.ofNat v < 0x80 := by
    rw [UInt8.lt_iff_toNat_lt, hk]
    exact Nat.lt_succ_of_le hv
  rw [next, if_pos h, hk]

theorem next_two {v : Nat} (rest : List UInt8) (hv : 127 < v) (hv' : v ≤ 2047) :
    next (UInt8.ofNat (v / 64 % 32 + 192)) (UInt8.ofNat (v % 64 + 128) :: rest) =
      (some (Char.ofNat v), rest) := by
  have hk : v / 64 % 32 + 192 < 256 := by omega
  have hlead : Lead.of? (UInt8.ofNat (v / 64 % 32 + 192)) = some ⟨1, 0x80, 0xBF, v / 64 % 32⟩ := by
    unfold Lead.of?
    simp only [toNat_octet hk]
    rw [if_neg (by omega), if_pos (by omega), Nat.add_sub_cancel]
  have hvalue : v / 64 % 32 * 64 + v % 64 = v := by omega
  refine next_lead (by omega) hk hlead ?_
  rw [follow_last (Nat.mod_lt v (by decide)), follow, hvalue]

theorem next_three {v : Nat} (rest : List UInt8) (hv : 2047 < v) (hv' : v ≤ 65535)
    (hs : v < 0xD800 ∨ 0xDFFF < v) :
    next (UInt8.ofNat (v / 4096 % 16 + 224))
      (UInt8.ofNat (v / 64 % 64 + 128) :: UInt8.ofNat (v % 64 + 128) :: rest) =
      (some (Char.ofNat v), rest) := by
  have hk : v / 4096 % 16 + 224 < 256 := by omega
  -- the range of the second octet leaves out just what is no character of three octets
  obtain ⟨low, high, hlead, hlow, hhigh⟩ : ∃ low high : UInt8,
      Lead.of? (UInt8.ofNat (v / 4096 % 16 + 224)) = some ⟨2, low, high, v / 4096 % 16⟩ ∧
      low.toNat ≤ v / 64 % 64 + 128 ∧ v / 64 % 64 + 128 ≤ high.toNat := by
    unfold Lead.of?
    simp only [toNat_octet hk]
    rw [if_neg (by omega), if_neg (by omega)]
    split
    · next h => exact ⟨0xA0, 0xBF, by congr 2; omega, by simp; omega, by simp; omega⟩
    · split
      · next h => exact ⟨0x80, 0x9F, by congr 2; omega, by simp, by simp; omega⟩
      · rw [if_pos (by omega), Nat.add_sub_cancel]
        exact ⟨0x80, 0xBF, rfl, by simp, by simp; omega⟩
  have hvalue : (v / 4096 % 16 * 64 + (v / 64 % 64 + 128 - 128)) * 64 + v % 64 = v := by omega
  refine next_lead (by omega) hk hlead ?_
  rw [follow_octet hlow hhigh, follow_last (Nat.mod_lt v (by decide)), follow, hvalue]

theorem next_four {v : Nat} (rest : List UInt8) (hv : 65535 < v) (hv' : v < 0x110000) :
    next (UInt8.ofNat (v / 262144 % 8 + 240))
      (UInt8.ofNat (v / 4096 % 64 + 128) :: UInt8.ofNat (v / 64 % 64 + 128) ::
        UInt8.ofNat (v % 64 + 128) :: rest) =
      (some (Char.ofNat v), rest) := by
  have hk : v / 262144 % 8 + 240 < 256 := by omega
  obtain ⟨low, high, hlead, hlow, hhigh⟩ : ∃ low high : UInt8,
      Lead.of? (UInt8.ofNat (v / 262144 % 8 + 240)) = some ⟨3, low, high, v / 262144 % 8⟩ ∧
      low.toNat ≤ v / 4096 % 64 + 128 ∧ v / 4096 % 64 + 128 ≤ high.toNat := by
    unfold Lead.of?
    simp only [toNat_octet hk]
    rw [if_neg (by omega), if_neg (by omega), if_neg (by omega), if_neg (by omega),
      if_neg (by omega)]
    split
    · next h => exact ⟨0x90, 0xBF, by congr 2; omega, by simp; omega, by simp; omega⟩
    · split
      · next h =>
        rw [Nat.add_sub_cancel]
        exact ⟨0x80, 0xBF, rfl, by simp, by simp; omega⟩
      · rw [if_pos (by omega)]
        exact ⟨0x80, 0x8F, by congr 2; omega, by simp, by simp; omega⟩
  have hvalue : ((v / 262144 % 8 * 64 + (v / 4096 % 64 + 128 - 128)) * 64 + v / 64 % 64) * 64 +
      v % 64 = v := by omega
  refine next_lead (by omega) hk hlead ?_
  rw [follow_octet hlow hhigh, follow_last (Nat.mod_lt _ (by decide)),
    follow_last (Nat.mod_lt v (by decide)), follow, hvalue]

/-- **The octets of a character are read as this character.** The first of them is its number, or is
none of the basic Latin ones. -/
theorem next_char (c : Char) (rest : List UInt8) :
    ∃ b bs, String.utf8EncodeChar c = b :: bs ∧ (b.toNat = c.toNat ∨ 128 ≤ b.toNat) ∧
      next b (bs ++ rest) = (some c, rest) := by
  have hv : c.val.toNat < 0xD800 ∨ (0xDFFF < c.val.toNat ∧ c.val.toNat < 0x110000) := c.valid
  have hc : Char.ofNat c.val.toNat = c := Char.ofNat_toNat c
  unfold String.utf8EncodeChar
  simp only
  split
  · next h =>
    refine ⟨_, _, rfl, Or.inl (toNat_octet (Nat.lt_of_le_of_lt h (by decide))), ?_⟩
    rw [List.nil_append, next_one rest h, hc]
  · split
    · next h1 h2 =>
      refine ⟨_, _, rfl, Or.inr (le_octet (by omega) (by omega)), ?_⟩
      rw [List.singleton_append, next_two rest (by omega) h2, hc]
    · split
      · next h1 h2 h3 =>
        refine ⟨_, _, rfl, Or.inr (le_octet (by omega) (by omega)), ?_⟩
        rw [List.cons_append, List.singleton_append, next_three rest (by omega) h3 (by omega), hc]
      · next h1 h2 h3 =>
        refine ⟨_, _, rfl, Or.inr (le_octet (by omega) (by omega)), ?_⟩
        rw [List.cons_append, List.cons_append, List.singleton_append,
          next_four rest (by omega) (by omega), hc]

/-! ### Reading a text -/

theorem decodeChars_encode (cs : List Char) :
    decodeChars (octets cs) = .ok cs := by
  induction cs with
  | nil => exact decodeChars.eq_1
  | cons c cs ih =>
    obtain ⟨b, bs, hc, -, hnext⟩ := next_char c (octets cs)
    rw [octets_cons, hc, List.cons_append, decodeChars]
    split
    · next h =>
      rw [hnext] at h
      cases h
    · next c' rest h =>
      rw [hnext] at h
      cases h
      rw [ih]

/-- **The octets of a text are read as this text.** -/
theorem decode?_encode (s : String) : decode? (encode s) = .ok s := by
  rw [encode_eq, decode?, decodeChars_encode]
  exact congrArg Except.ok String.ofList_toList

end DebugHost.Text.Utf8
