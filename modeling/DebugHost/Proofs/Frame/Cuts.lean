import DebugHost.Frame
import DebugHost.Proofs.Frame.Header
import DebugHost.Proofs.Message.Reading

/-! # Messages, whole frames and cut frames

The octets of a message are its header, which tells the length of the body, and the body. The body of a
message that may be sent is decoded as this message, but for a body part that is `null`; and decoding,
encoding and decoding again gives what decoding gave (`message_roundtrip`).

The octets of a frame give its message, whatever stands behind (`reading_frame`). A frame that is cut
gives a fault, wherever the cut is, and nothing of it is left (`reading_cut`): a cut in the first line
ends that line and leaves a header without its end, and the empty line leads to the body even without its
line feed, so that there the body is what is missing. -/

namespace DebugHost.Frame

open DebugHost.Json DebugHost.Text DebugHost.Text.Utf8

theorem body_eq (m : Message) : body m = octets (chars m.toValue) :=
  encode_ofList _

/-- The octets of a message: as many octets of body as its header says. -/
theorem encode_message (m : Message) :
    encode m = Utf8.encode ("Content-Length: " ++ toString (body m).length ++ "\r\n\r\n") ++ body m :=
  rfl

theorem decodeBody_body {m : Message} (h : m.Sendable) : decodeBody (body m) = .ok m.withoutNull := by
  rw [decodeBody, body_eq]
  exact mapError_eq_ok.mpr (Message.read_written h)

theorem received_decodeBody {bs : List UInt8} {m : Message} (h : decodeBody bs = .ok m) :
    m.Received :=
  Message.received_read (mapError_eq_ok.mp h)

/-- **Messages survive encoding and decoding.** A message that may be sent is encoded as a header that
tells the number of octets of its body, and these octets, which are decoded as the message without a
body part that is `null`. What was decoded from any octets, with no real number in its free-form part,
is encoded so that decoding gives it again. -/
theorem message_roundtrip :
    (∀ m : Message, m.Sendable → ∃ bs,
      encode m = Utf8.encode ("Content-Length: " ++ toString bs.length ++ "\r\n\r\n") ++ bs ∧
        decodeBody bs = .ok m.withoutNull) ∧
    ∀ bs m, decodeBody bs = .ok m → m.free.every Message.isNotReal = true → ∃ bs',
      encode m = Utf8.encode ("Content-Length: " ++ toString bs'.length ++ "\r\n\r\n") ++ bs' ∧
        decodeBody bs' = .ok m := by
  refine ⟨fun m h => ⟨body m, encode_message m, decodeBody_body h⟩, fun bs m hbs hreal => ?_⟩
  have h := received_decodeBody hbs
  refine ⟨body m, encode_message m, ?_⟩
  rw [decodeBody_body (h.sendable hreal), h.present]

/-- A response with the greatest number, escapes, characters of several octets and a body that is
`null`. -/
def nullResponse : Message :=
  .response ⟨9223372036854775807, -1, false, "next \"\\\u0001\n", some "é→𝄞", some .null⟩

/-- An event from another hand: its kind stands last, the members of its body are not sorted, one of
them is given twice, and a member that is no part of it has a real number. -/
def foreignEvent : List UInt8 := Utf8.encode
  ("\x7b \"body\": \x7b\"b\":[null,-9223372036854775808,[]], \"a\":0,\"a\":18446744073709551615\x7d,\n" ++
    "\"event\":\"out\\u0070ut\",\"seq\":7,\"x\":1.5,\"type\" :\"event\"\x7d")

/-- The event as it is written. -/
def sortedEvent : String :=
  "\x7b\"type\":\"event\",\"seq\":7,\"event\":\"output\"," ++
    "\"body\":\x7b\"a\":18446744073709551615,\"b\":[null,-9223372036854775808,[]]\x7d\x7d"

theorem message_roundtrip_foreign :
    (∃ bs, encode nullResponse =
        Utf8.encode ("Content-Length: " ++ toString bs.length ++ "\r\n\r\n") ++ bs ∧
      decodeBody bs = .ok (.response ⟨9223372036854775807, -1, false, "next \"\\\u0001\n",
        some "é→𝄞", none⟩)) ∧
    ∃ m, decodeBody foreignEvent = .ok m ∧ Json.text m.toValue = sortedEvent ∧
      ∃ bs', encode m = Utf8.encode ("Content-Length: " ++ toString bs'.length ++ "\r\n\r\n") ++ bs' ∧
        decodeBody bs' = .ok m := by
  have hsend : nullResponse.Sendable := ⟨by decide, rfl, rfl, by decide⟩
  refine ⟨message_roundtrip.1 nullResponse hsend, ?_⟩
  have hread : ((decodeBody foreignEvent).toOption.any fun m =>
      m.free.every Message.isNotReal && Json.text m.toValue == sortedEvent) = true := by
    decide +kernel
  cases hm : decodeBody foreignEvent with
  | error f => rw [hm] at hread; cases hread
  | ok m =>
    rw [hm] at hread
    obtain ⟨hreal, htext⟩ := Bool.and_eq_true_iff.mp hread
    exact ⟨m, rfl, eq_of_beq htext, message_roundtrip.2 foreignEvent m hm hreal⟩

/-! ### Header lines that are at fault -/

variable {length : Option Nat} {line : List UInt8}

theorem headerLine_error {text : String} {f : Fault} (h : headerLine text = .error f) :
    f ≠ .lineTooLong := by
  unfold headerLine at h
  split at h
  · cases h
    simp
  · simp only at h
    split at h
    · split at h
      · cases h
        simp
      · split at h
        · cases h
          simp
        · cases h
    · cases h

theorem lineProgress_error {f : Fault} (h : lineProgress length line = .error f) :
    f ≠ .lineTooLong := by
  unfold lineProgress at h
  split at h
  · next hf =>
    cases h
    unfold lineText at hf
    split at hf
    · cases hf
      simp
    · cases hf
  · split at h
    · cases h
      simp
    · cases h
  · split at h
    · next hf =>
      cases h
      exact headerLine_error hf
    · cases h

/-- A fault that does not come from the size of a line, and leaves nothing unread. -/
def Breaks (bs : List UInt8) (p : Progress) : Prop :=
  ∃ f, f ≠ .lineTooLong ∧ reading p bs = (.fault f, [])

/-- A stream that ends within the first line of a header. -/
theorem breaks_firstLine {bs : List UInt8} (hne : bs ≠ []) (hlf : 10 ∉ bs)
    (hl : bs.length ≤ maxLine) : Breaks bs .start := by
  have hcount : 0 + bs.length ≠ 0 := by
    rw [Nat.zero_add]
    exact Nat.ne_of_gt (List.length_pos_iff.mpr hne)
  have hread : reading .start (bs ++ []) = _ := reading_piece hlf (by rwa [Nat.zero_add]) []
  rw [List.append_nil, List.append_nil, reading_header_nil, Progress.close, if_neg hcount,
    List.reverse_reverse] at hread
  cases hp : lineProgress none bs with
  | error f =>
    rw [hp] at hread
    exact ⟨f, lineProgress_error hp, hread⟩
  | ok p =>
    rw [hp] at hread
    -- without a length no line starts a body
    have hstop : p.stop = .fault .endInHeader := by
      rcases lineProgress_ok hp with ⟨n, rfl⟩ | ⟨told, rfl⟩
      · unfold lineProgress at hp
        split at hp
        · cases hp
        · cases hp
        · split at hp <;> cases hp
      · rfl
    exact ⟨.endInHeader, by simp, hread.trans (by simp only [hstop])⟩

/-- A stream that ends within a body. -/
theorem breaks_body {n : Nat} {bs : List UInt8} (h : bs.length < n) : Breaks bs (.body n []) := by
  have hread : reading (.body n []) (bs ++ []) = _ := reading_body (Nat.le_of_lt h) []
  obtain ⟨m, hm⟩ := Nat.exists_eq_add_of_lt h
  have hmissing : n - bs.length = m + 1 := by omega
  rw [List.append_nil, hmissing, reading_body_nil] at hread
  exact ⟨.endInBody, by simp, hread⟩

/-! ### Frames -/

variable {bs : List UInt8}

theorem ofBody_eq (bs : List UInt8) :
    ofBody bs = lengthLine bs.length ++ 10 :: 13 :: 10 :: bs := by
  rw [ofBody, header_eq, List.append_assoc]
  rfl

/-- Behind its first line a header only lacks its end. -/
theorem reading_firstLine {n : Nat} (h : n ≤ maxBody) (rest : List UInt8) :
    reading .start (lengthLine n ++ 10 :: rest) = reading (.header true (some n) [] 0) rest := by
  have hread : reading .start (lengthLine n ++ 10 :: rest) = _ :=
    reading_end (lf_not_mem_lengthLine n) (by rw [Nat.zero_add]; exact length_lengthLine h) rest
  rw [List.append_nil, List.reverse_reverse, lineProgress_length h] at hread
  exact hread

/-- Behind the empty line stands the body. -/
theorem reading_secondLine (n : Nat) (rest : List UInt8) :
    reading (.header true (some n) [] 0) (13 :: 10 :: rest) = reading (.body n []) rest := by
  have hread : reading (.header true (some n) [] 0) ([13] ++ 10 :: rest) = _ :=
    reading_end (by decide) (by decide) rest
  have hline : ((([13] : List UInt8) ++ [10]).reverse ++ []).reverse = [13, 10] := by decide
  rw [hline, (lineProgress_empty n).1] at hread
  exact hread

/-- **A frame gives its message.** -/
theorem reading_frame (h : bs.length ≤ maxBody) (rest : List UInt8) :
    reading .start (ofBody bs ++ rest) = (decoded bs, rest) := by
  have hbody : reading (.body bs.length []) (bs ++ rest) = _ := reading_body (Nat.le_refl _) rest
  rw [Nat.sub_self, reading_body_zero, List.append_nil, List.reverse_reverse] at hbody
  rw [ofBody_eq, List.append_assoc]
  exact (reading_firstLine h _).trans ((reading_secondLine _ _).trans hbody)

theorem breaks_secondLine {n : Nat} (hn : 0 < n) : Breaks [13] (.header true (some n) [] 0) := by
  obtain ⟨m, rfl⟩ := Nat.exists_eq_succ_of_ne_zero (Nat.ne_of_gt hn)
  have hread : reading (.header true (some (m + 1)) [] 0) ([13] ++ []) = _ :=
    reading_piece (by decide) (by decide) []
  have hline : (([13] : List UInt8).reverse ++ []).reverse = [13] := by decide
  rw [reading_header_nil, Progress.close, if_neg (by decide), hline, (lineProgress_empty _).2] at hread
  exact ⟨.endInBody, by simp, hread⟩

/-- **A cut frame gives a fault.** -/
theorem reading_cut {tail : List UInt8} (hbs : bs ≠ []) (h : bs.length ≤ maxBody) (hne : tail ≠ [])
    (hp : tail <+: ofBody bs) (hcut : tail ≠ ofBody bs) : Breaks tail .start := by
  obtain ⟨missing, hp⟩ := hp
  have hmissing : missing ≠ [] := by
    rintro rfl
    exact hcut (by rwa [List.append_nil] at hp)
  have hlf := lf_not_mem_lengthLine bs.length
  have hlong := Nat.le_of_lt (length_lengthLine h)
  rw [ofBody_eq] at hp
  rcases List.append_eq_append_iff.mp hp with ⟨rest, hline, -⟩ | ⟨read, rfl, hrest⟩
  · -- within the first line
    have hsub : tail.Sublist (lengthLine bs.length) := hline ▸ List.sublist_append_left tail rest
    exact breaks_firstLine hne (fun h => hlf (hsub.subset h)) (Nat.le_trans hsub.length_le hlong)
  · cases read with
    | nil =>
      rw [List.append_nil] at hne ⊢
      exact breaks_firstLine hne hlf hlong
    | cons b read =>
      obtain ⟨rfl, hsecond⟩ := List.cons.inj hrest
      suffices hbreaks : Breaks read (.header true (some bs.length) [] 0) by
        obtain ⟨f, hf, hread⟩ := hbreaks
        exact ⟨f, hf, (reading_firstLine h read).trans hread⟩
      cases read with
      | nil => exact ⟨.endInHeader, by simp, reading_header_nil ..⟩
      | cons b read =>
        obtain ⟨rfl, hempty⟩ := List.cons.inj hsecond
        cases read with
        | nil => exact breaks_secondLine (List.length_pos_iff.mpr hbs)
        | cons b read =>
          obtain ⟨rfl, hbody⟩ := List.cons.inj hempty
          have hlt : read.length < bs.length := by
            rw [hbody]
            show read.length < (read ++ missing).length
            rw [List.length_append]
            exact Nat.lt_add_of_pos_right (List.length_pos_iff.mpr hmissing)
          obtain ⟨f, hf, hread⟩ := breaks_body hlt
          exact ⟨f, hf, (reading_secondLine _ _).trans hread⟩

/-- A body is never empty. -/
theorem body_ne_nil (m : Message) : body m ≠ [] := by
  rw [body_eq, Message.toValue, Json.chars, Text.Utf8.octets_latin (by decide)]
  exact List.cons_ne_nil _ _

end DebugHost.Frame
