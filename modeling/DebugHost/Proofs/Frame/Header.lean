import DebugHost.Proofs.Frame.Stream
import DebugHost.Proofs.Text.Utf8
import DebugHost.Proofs.Text.Words

/-! # Reading the header that is written

The line that tells the length of a body is read as just this length, if it is not above what a body may
have (`lineProgress_length`), and the empty line behind it starts the body, also when the stream ends
within it (`lineProgress_empty`). -/

namespace DebugHost.Frame

open DebugHost.Text DebugHost.Text.Utf8

/-! ### Header lines -/

theorem cut_append {c : Char} {cs : List Char} (h : c ∉ cs) (ds : List Char) :
    Redaction.cut c (cs ++ c :: ds) = some (cs, ds) := by
  induction cs with
  | nil => rw [List.nil_append, Redaction.cut, if_pos rfl]
  | cons d cs ih =>
    rw [List.cons_append, Redaction.cut, if_neg (List.ne_of_not_mem_cons h).symm,
      ih (List.not_mem_of_not_mem_cons h)]
    rfl

/-- A character that is neither a control character nor beyond basic Latin. -/
def Plain (c : Char) : Prop := 32 ≤ c.toNat ∧ c.toNat < 128

theorem digit_toNat {n : Nat} {c : Char} (h : c ∈ Nat.toDigits 10 n) :
    48 ≤ c.toNat ∧ c.toNat ≤ 57 := by
  have hdigit := Nat.isDigit_of_mem_toDigits (by decide) (by decide) h
  simpa [Char.isDigit, UInt32.le_iff_toNat_le] using hdigit

theorem trimBlanks_digits (n : Nat) :
    trimBlanks (String.ofList (' ' :: Nat.toDigits 10 n)) = String.ofList (Nat.toDigits 10 n) := by
  obtain ⟨hne, hblank⟩ := (Integer.numeral_toDigits n).not_blank
  have hpadded : Padded (Nat.toDigits 10 n) (' ' :: Nat.toDigits 10 n) :=
    ⟨[' '], [], (List.append_nil _).symm, List.forall_mem_singleton.mpr (by decide), List.forall_mem_nil _⟩
  exact trimBlanks_padded hpadded hne hblank

/-- The characters of the name of a length. -/
def lengthName : List Char :=
  ['C', 'o', 'n', 't', 'e', 'n', 't', '-', 'L', 'e', 'n', 'g', 't', 'h']

/-- The characters of the line that tells a length, without its end. -/
def lengthChars (n : Nat) : List Char := lengthName ++ ':' :: ' ' :: Nat.toDigits 10 n

/-- The line that tells a length is read as this length. -/
theorem headerLine_length {n : Nat} (h : n ≤ maxBody) :
    headerLine (String.ofList (lengthChars n)) = .ok (some n) := by
  have hcut : Redaction.cut ':' (lengthChars n) =
      some (lengthName, ' ' :: Nat.toDigits 10 n) := cut_append (by decide) _
  have hname : sameLetters (trimBlanks (String.ofList lengthName)) "Content-Length" =
      true := by decide +kernel
  have hparse : Integer.parse .word64 (String.ofList (Nat.toDigits 10 n)) = .ok (n : Int) := by
    refine Integer.parse_numeral (by decide) (Integer.numeral_toDigits n) ?_
    unfold maxBody at h
    show (n : Int) ≤ 18446744073709551615
    omega
  rw [headerLine, String.toList_ofList, hcut]
  show (if sameLetters (trimBlanks (String.ofList lengthName)) "Content-Length" = true
    then _ else _) = _
  rw [if_pos hname, trimBlanks_digits]
  simp only
  rw [hparse]
  show (if maxBody < (n : Int).toNat then _ else _) = _
  rw [Int.toNat_natCast, if_neg (Nat.not_lt.mpr h)]

theorem plain_lengthChars (n : Nat) : ∀ c ∈ lengthChars n, Plain c := by
  intro c hc
  rcases List.mem_append.mp hc with hc | hc
  · have hname : lengthName.all fun c => 32 ≤ c.toNat ∧ c.toNat < 128 := rfl
    have hc : 32 ≤ c.toNat ∧ c.toNat < 128 := of_decide_eq_true (List.all_eq_true.mp hname c hc)
    exact hc
  · rcases List.mem_cons.mp hc with rfl | hc
    · exact ⟨by decide, by decide⟩
    · rcases List.mem_cons.mp hc with rfl | hc
      · exact ⟨by decide, by decide⟩
      · have hbounds := digit_toNat hc
        exact ⟨by omega, by omega⟩

/-! ### The octets of a header -/

/-- The first line of a header up to its line feed. -/
def lengthLine (n : Nat) : List UInt8 := octets (lengthChars n ++ ['\r'])

theorem header_eq (n : Nat) : header n = lengthLine n ++ 10 :: [13, 10] := by
  have hchars : ("Content-Length: " ++ toString n ++ "\r\n\r\n").toList =
      (lengthChars n ++ ['\r']) ++ ['\n', '\r', '\n'] := by
    have hdigits : (toString n).toList = Nat.toDigits 10 n := Nat.toList_repr
    have hname : "Content-Length: ".toList = lengthName ++ [':', ' '] := by decide +kernel
    have hends : "\r\n\r\n".toList = ['\r', '\n', '\r', '\n'] := by decide +kernel
    rw [String.toList_append, String.toList_append, hdigits, hname, hends, lengthChars]
    simp only [List.append_assoc, List.cons_append, List.nil_append]
  have hends : octets ['\n', '\r', '\n'] = [10, 13, 10] := by decide
  rw [header, encode_eq, hchars, octets_append, hends, lengthLine]

theorem octets_plain {cs : List Char} (h : ∀ c ∈ cs, Plain c) :
    octets cs = cs.map fun c => UInt8.ofNat c.toNat := by
  induction cs with
  | nil => rfl
  | cons c cs ih =>
    rw [octets_latin (h c (List.mem_cons_self ..)).2, ih fun c' hc' => h c' (.tail c hc')]
    rfl

theorem lengthLine_eq (n : Nat) :
    lengthLine n = (lengthChars n).map (fun c => UInt8.ofNat c.toNat) ++ [13] := by
  rw [lengthLine, octets_append, octets_plain (plain_lengthChars n)]
  rfl

theorem lf_not_mem_lengthLine (n : Nat) : 10 ∉ lengthLine n := by
  rw [lengthLine_eq]
  intro h
  rcases List.mem_append.mp h with h | h
  · obtain ⟨c, hc, h⟩ := List.mem_map.mp h
    have hplain := plain_lengthChars n c hc
    have hnat := congrArg UInt8.toNat h
    rw [toNat_octet (Nat.lt_trans hplain.2 (by decide))] at hnat
    exact absurd hplain.1 (by rw [hnat]; decide)
  · exact absurd h (by decide)

theorem length_lengthLine {n : Nat} (h : n ≤ maxBody) : (lengthLine n).length < maxLine := by
  have hdigits : (Nat.toDigits 10 n).length ≤ 8 := by
    refine (Nat.length_toDigits_le_iff (by decide) (by decide)).mpr ?_
    unfold maxBody at h
    omega
  rw [lengthLine_eq, List.length_append, List.length_map, lengthChars, List.length_append]
  show 14 + ((Nat.toDigits 10 n).length + 2) + 1 < 8192
  omega

theorem lineText_octets {cs ends : List Char} (hne : cs ≠ []) (h : ∀ c ∈ cs, Plain c)
    (hends : ∀ c ∈ ends, c = '\r' ∨ c = '\n') :
    lineText (octets (cs ++ ends)) = .ok (String.ofList cs) := by
  have hdrop := dropEnd_append (p := fun c => c = '\r' ∨ c = '\n') hne
    (fun c hc => decide_eq_false ?_) fun c hc => decide_eq_true (hends c hc)
  · rw [lineText, Utf8.decode?, decodeChars_encode]
    show Except.ok (trimEndBy _ (String.ofList (cs ++ ends))) = _
    rw [trimEndBy, String.toList_ofList, hdrop]
  · rintro (rfl | rfl) <;> exact absurd (h _ hc).1 (by decide)

/-- **The first line of a header tells the length of the body.** -/
theorem lineProgress_length {n : Nat} (h : n ≤ maxBody) :
    lineProgress none (lengthLine n ++ [10]) = .ok (.header true (some n) [] 0) := by
  have hne : lengthChars n ≠ [] := List.append_ne_nil_of_right_ne_nil _ (List.cons_ne_nil _ _)
  have htext : lineText (lengthLine n ++ [10]) = .ok (String.ofList (lengthChars n)) := by
    have hline : lengthLine n ++ [10] = octets (lengthChars n ++ ['\r', '\n']) := by
      rw [lengthLine, octets_append, octets_append, List.append_assoc]
      rfl
    rw [hline]
    exact lineText_octets hne (plain_lengthChars n) (by simp)
  have hempty : String.ofList (lengthChars n) ≠ "" := fun h =>
    hne (by rw [← String.toList_ofList (l := lengthChars n), h]; rfl)
  unfold lineProgress
  rw [htext]
  split
  · next h' => cases h'
  · next h' => exact absurd (Except.ok.inj h') hempty
  · next h' =>
    cases h'
    rw [headerLine_length h]
    rfl

/-- A line of nothing but the characters that end lines starts the body. -/
theorem lineProgress_blank (n : Nat) (cs : List Char)
    (hcs : dropEnd (fun c => c = '\r' ∨ c = '\n') cs = []) :
    lineProgress (some n) (octets cs) = .ok (.body n []) := by
  have hline : lineText (octets cs) = .ok "" := by
    rw [lineText, Utf8.decode?, decodeChars_encode]
    show Except.ok (trimEndBy _ (String.ofList cs)) = _
    rw [trimEndBy, String.toList_ofList, hcs]
  rw [lineProgress, hline]
  rfl

/-- **The second line of a header starts the body**, also without its line feed. -/
theorem lineProgress_empty (n : Nat) :
    lineProgress (some n) [13, 10] = .ok (.body n []) ∧
      lineProgress (some n) [13] = .ok (.body n []) :=
  ⟨lineProgress_blank n ['\r', '\n'] (by decide), lineProgress_blank n ['\r'] (by decide)⟩

end DebugHost.Frame
