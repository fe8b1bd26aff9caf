/-! # UTF-8

Text as octets. `encode` writes characters; `next` reads one character, or tells how long the
faulty part at the front is: the longest run of octets that could still have become a character
(at least one octet). `decode?` refuses the first faulty part and says what is left from there on,
`decodeLossy` puts one replacement character for every faulty part. -/

namespace DebugHost.Text.Utf8

/-- The octets of a text. -/
def encode (s : String) : List UInt8 := s.toUTF8.toList

/-- What the first octet of a character promises: how many octets follow, the range of the first of
them, and the bits it carries itself. -/
structure Lead where
  /-- Octets that follow. -/
  more : Nat
  /-- Least value of the second octet. -/
  low : UInt8
  /-- Greatest value of the second octet. -/
  high : UInt8
  /-- Bits of the character in the first octet. -/
  bits : Nat

/-- Reads a first octet of a character of more than one octet. The ranges of the second octet leave
out overlong forms, surrogates and what lies beyond the last character. -/
def Lead.of? (b : UInt8) : Option Lead :=
  let n := b.toNat
  if n < 0xC2 then none
  else if n < 0xE0 then some ⟨1, 0x80, 0xBF, n - 0xC0⟩
  else if n = 0xE0 then some ⟨2, 0xA0, 0xBF, 0⟩
  else if n = 0xED then some ⟨2, 0x80, 0x9F, 0xD⟩
  else if n < 0xF0 then some ⟨2, 0x80, 0xBF, n - 0xE0⟩
  else if n = 0xF0 then some ⟨3, 0x90, 0xBF, 0⟩
  else if n < 0xF4 then some ⟨3, 0x80, 0xBF, n - 0xF0⟩
  else if n = 0xF4 then some ⟨3, 0x80, 0x8F, 4⟩
  else none

/-- Reads `more` further octets onto the bits `acc`; `none` at the first that is out of range. The
second component is what was not read. -/
def follow : Nat → UInt8 → UInt8 → Nat → List UInt8 → Option Nat × List UInt8
  | 0, _, _, acc, bs => (some acc, bs)
  | _ + 1, _, _, _, [] => (none, [])
  | more + 1, low, high, acc, b :: bs =>
    if low ≤ b ∧ b ≤ high then follow more 0x80 0xBF (acc * 64 + (b.toNat - 0x80)) bs
    else (none, b :: bs)

/-- Reads the character that starts with `b`; `none` for a faulty part. The second component is what
stands behind the character or the faulty part. -/
def next (b : UInt8) (bs : List UInt8) : Option Char × List UInt8 :=
  if b < 0x80 then (some (Char.ofNat b.toNat), bs)
  else match Lead.of? b with
    | none => (none, bs)
    | some l =>
      let (value, rest) := follow l.more l.low l.high l.bits bs
      (value.map Char.ofNat, rest)

theorem length_follow_le (more : Nat) (low high : UInt8) (acc : Nat) (bs : List UInt8) :
    (follow more low high acc bs).2.length ≤ bs.length := by
  induction bs generalizing more low high acc with
  | nil => cases more <;> simp [follow]
  | cons b bs ih =>
    cases more with
    | zero => simp [follow]
    | succ more =>
      simp only [follow]
      split
      · exact Nat.le_succ_of_le (ih ..)
      · exact Nat.le_refl _

/-- Reading a character never adds to the text. -/
theorem length_next_le (b : UInt8) (bs : List UInt8) : (next b bs).2.length ≤ bs.length := by
  unfold next
  split
  · exact Nat.le_refl _
  · split
    · exact Nat.le_refl _
    · exact length_follow_le ..

/-- The characters of a text, or the octets from the first faulty part on. -/
def decodeChars : List UInt8 → Except (List UInt8) (List Char)
  | [] => .ok []
  | b :: bs =>
    match h : next b bs with
    | (none, _) => .error (b :: bs)
    | (some c, rest) =>
      have : rest.length ≤ bs.length := by simpa [h] using length_next_le b bs
      match decodeChars rest with
      | .error e => .error e
      | .ok cs => .ok (c :: cs)
termination_by bs => bs.length
decreasing_by simp_wf; omega

/-- The text that the octets spell, or the octets from the first faulty part on. -/
def decode? (bs : List UInt8) : Except (List UInt8) String :=
  (decodeChars bs).map String.ofList

/-- The character that stands for a faulty part. -/
def replacement : Char := '\uFFFD'

/-- The characters of a text, one `replacement` for every faulty part. -/
def decodeLossyChars : List UInt8 → List Char
  | [] => []
  | b :: bs =>
    have : (next b bs).2.length ≤ bs.length := length_next_le b bs
    (next b bs).1.getD replacement :: decodeLossyChars (next b bs).2
termination_by bs => bs.length
decreasing_by simp_wf; omega

/-- The text that the octets spell, one `replacement` for every faulty part. -/
def decodeLossy (bs : List UInt8) : String := String.ofList (decodeLossyChars bs)

end DebugHost.Text.Utf8
