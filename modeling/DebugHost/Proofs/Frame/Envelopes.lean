import DebugHost.Proofs.Frame.Delivery

/-! # Frames of any adapter

An adapter may put other lines into a header than the one that is written here: lines of any names, in any
order, with blanks around names and values, ended by a line feed alone or behind a carriage return, and the
length more than once. `Envelope` is a frame that is spelled in this way, with any octets as its body,
and `Envelope.WellFormed` says what its header has to keep to, character by character.

What a header line says is read off its characters (`headerLine_tells`, `headerLine_other`), of several
lengths the last one counts (`reading_lines`), and an envelope is read as its body, whatever the body is and
whatever stands behind (`reads_envelope`). So the body of one envelope has no part in how the next ones are
read (`envelopes_read`). -/

namespace DebugHost.Frame

open DebugHost.Text DebugHost.Text.Utf8 DebugHost.Text.Integer

/-! ### Envelopes -/

/-- What ends a line. -/
inductive LineEnd where
  | lf
  | crlf
deriving DecidableEq, Repr

def LineEnd.chars : LineEnd → List Char
  | .lf => ['\n']
  | .crlf => ['\r', '\n']

/-- A line of a header. -/
structure HeaderLine where
  name : List Char
  value : List Char
  ending : LineEnd

/-- The characters of a line up to its line feed. -/
def HeaderLine.front (l : HeaderLine) : List Char :=
  l.name ++ ':' :: l.value ++ l.ending.chars.dropLast

def HeaderLine.octets (l : HeaderLine) : List UInt8 := Utf8.octets (l.front ++ ['\n'])

/-- A name is the one of the length, in any case of letters and with blanks around it. -/
def NamesLength (name : List Char) : Prop :=
  ∃ word, Padded word name ∧ word.map lower = lengthName.map lower

/-- A line tells the length `n`. -/
structure HeaderLine.Tells (l : HeaderLine) (n : Nat) : Prop where
  name : NamesLength l.name
  value : ∃ word, Padded word l.value ∧ Numeral n word

/-- A line has a name, a colon and a value, is not too long, and if it is about the length, it tells one that
a body may have. -/
structure HeaderLine.WellFormed (l : HeaderLine) : Prop where
  name_colon : ':' ∉ l.name
  name_lf : '\n' ∉ l.name
  value_lf : '\n' ∉ l.value
  short : l.octets.length ≤ maxLine
  length : NamesLength l.name → ∃ n ≤ maxBody, l.Tells n

/-- A frame as any adapter may spell it. -/
structure Envelope where
  lines : List HeaderLine
  /-- The end of the empty line. -/
  ending : LineEnd
  body : List UInt8

def Envelope.octets (e : Envelope) : List UInt8 :=
  e.lines.flatMap HeaderLine.octets ++ Utf8.octets e.ending.chars ++ e.body

/-- All lines of the header are well formed, and the last one that tells a length tells that of the body.
-/
structure Envelope.WellFormed (e : Envelope) : Prop where
  lines : ∀ l ∈ e.lines, l.WellFormed
  fits : e.body.length ≤ maxBody
  told : ∃ before l behind, e.lines = before ++ l :: behind ∧ l.Tells e.body.length ∧
    ∀ l' ∈ behind, ¬ NamesLength l'.name

/-! ### What a line says -/

theorem lower_blank {c : Char} (h : isBlank c = true) : lower c = c := by
  have hblank := of_decide_eq_true h
  refine if_neg fun hc => ?_
  have hlow : 'A'.toNat ≤ c.toNat := hc.1
  have hhigh : c.toNat ≤ 'Z'.toNat := hc.2
  have hA : 'A'.toNat = 65 := rfl
  have hZ : 'Z'.toNat = 90 := rfl
  omega

/-- The letters of the name of the length are no blanks. -/
theorem not_blank_of_lower {word : List Char} (h : word.map lower = lengthName.map lower) :
    word ≠ [] ∧ ∀ c ∈ word, isBlank c = false := by
  refine ⟨?_, fun c hc => ?_⟩
  · rintro rfl
    cases h
  · have hletter : lower c ∈ lengthName.map lower := by
      rw [← h]
      exact List.mem_map_of_mem hc
    have hall : (lengthName.map lower).all (fun d => !isBlank d) = true := by decide
    cases hblank : isBlank c with
    | false => rfl
    | true =>
      have hno := List.all_eq_true.mp hall _ hletter
      rw [lower_blank hblank, hblank] at hno
      cases hno

/-- **A name is recognised as the one of the length just if it is.** -/
theorem sameLetters_iff (name : List Char) :
    sameLetters (trimBlanks (String.ofList name)) "Content-Length" = true ↔ NamesLength name := by
  have hname : "Content-Length".toList = lengthName := by decide +kernel
  unfold sameLetters
  rw [hname, decide_eq_true_iff]
  constructor
  · intro h
    exact ⟨_, padded_trimBlanks name, h⟩
  · rintro ⟨word, hpadded, hword⟩
    obtain ⟨hne, hblank⟩ := not_blank_of_lower hword
    rw [trimBlanks_padded hpadded hne hblank, String.toList_ofList, hword]

/-- The characters that end lines. -/
def isLineEnd (c : Char) : Bool := c = '\r' ∨ c = '\n'

theorem blank_of_lineEnd {c : Char} (h : isLineEnd c = true) : isBlank c = true := by
  rcases of_decide_eq_true h with rfl | rfl <;> decide

theorem LineEnd.chars_eq (e : LineEnd) : e.chars.dropLast ++ ['\n'] = e.chars := by
  cases e <;> rfl

theorem LineEnd.isLineEnd_of_mem {e : LineEnd} {c : Char} (h : c ∈ e.chars) : isLineEnd c = true := by
  have hall : e.chars.all isLineEnd = true := by cases e <;> decide
  exact List.all_eq_true.mp hall c h

namespace HeaderLine

variable {l : HeaderLine}

/-- The value of a line as it is read. -/
def given (l : HeaderLine) : List Char := dropEnd isLineEnd (l.value ++ l.ending.chars)

/-- The text of a line. -/
theorem lineText_octets (l : HeaderLine) :
    lineText l.octets = .ok (String.ofList (l.name ++ ':' :: l.given)) := by
  have hchars : l.front ++ ['\n'] = l.name ++ ':' :: (l.value ++ l.ending.chars) := by
    rw [front, List.append_assoc, l.ending.chars_eq, List.append_assoc, List.cons_append]
  rw [octets, hchars, lineText, Utf8.decode?, decodeChars_encode]
  show Except.ok (trimEndBy isLineEnd (String.ofList _)) = _
  rw [trimEndBy, String.toList_ofList, dropEnd_behind (by decide)]
  rfl

/-- Where a line leads is what its text says. -/
theorem lineProgress_eq (l : HeaderLine) (length : Option Nat) {told : Option Nat}
    (h : headerLine (String.ofList (l.name ++ ':' :: l.given)) = .ok told) :
    lineProgress length l.octets = .ok (.header true (told.or length) [] 0) := by
  have hempty : String.ofList (l.name ++ ':' :: l.given) ≠ "" := by
    intro h
    have hlist := congrArg String.toList h
    rw [String.toList_ofList] at hlist
    exact List.append_ne_nil_of_right_ne_nil _ (List.cons_ne_nil _ _) hlist
  unfold lineProgress
  rw [l.lineText_octets]
  split
  · next h' => cases h'
  · next h' => exact absurd (Except.ok.inj h') hempty
  · next h' =>
    cases h'
    rw [h]

/-- A line that tells a length is read as this length. -/
theorem headerLine_tells (hcolon : ':' ∉ l.name) {n : Nat} (h : l.Tells n) (hn : n ≤ maxBody) :
    headerLine (String.ofList (l.name ++ ':' :: l.given)) = .ok (some n) := by
  obtain ⟨word, hpadded, hnumeral⟩ := h.value
  obtain ⟨hne, hblank⟩ := hnumeral.not_blank
  have hvalue : trimBlanks (String.ofList l.given) = String.ofList word :=
    trimBlanks_padded (hpadded.dropEnd hne hblank (fun _ => blank_of_lineEnd)
      fun _ hd => LineEnd.isLineEnd_of_mem hd) hne hblank
  have hparse : Integer.parse .word64 (String.ofList word) = .ok (n : Int) := by
    refine parse_numeral (by decide) hnumeral ?_
    unfold maxBody at hn
    show (n : Int) ≤ 18446744073709551615
    omega
  rw [headerLine, String.toList_ofList, cut_append hcolon]
  simp only
  rw [if_pos ((sameLetters_iff l.name).mpr h.name), hvalue, hparse]
  simp only
  rw [Int.toNat_natCast, if_neg (Nat.not_lt.mpr hn)]

/-- A line of another name says nothing that matters. -/
theorem headerLine_other (hcolon : ':' ∉ l.name) (h : ¬ NamesLength l.name) :
    headerLine (String.ofList (l.name ++ ':' :: l.given)) = .ok none := by
  rw [headerLine, String.toList_ofList, cut_append hcolon]
  simp only
  rw [if_neg fun hs => h ((sameLetters_iff l.name).mp hs)]

end HeaderLine

/-! ### Reading envelopes -/

/-- An octet with its highest bit set is no line feed. -/
theorem high_ne_lf {k : Nat} (hk : k < 256) (hle : 128 ≤ k) : (10 : UInt8) ≠ UInt8.ofNat k := by
  intro heq
  have hval := congrArg UInt8.toNat heq
  rw [toNat_octet hk] at hval
  have hten : (10 : UInt8).toNat = 10 := rfl
  omega

/-- A line feed among the octets is one of the characters: the octets of a character beyond basic Latin
all have their highest bit set. -/
theorem lf_mem_octets {cs : List Char} (h : 10 ∈ Utf8.octets cs) : '\n' ∈ cs := by
  induction cs with
  | nil => cases h
  | cons c cs ih =>
    rw [octets_cons] at h
    rcases List.mem_append.mp h with h | h
    · have hc : c = '\n' := by
        unfold String.utf8EncodeChar at h
        simp only at h
        split at h
        · next hle =>
          have hval := congrArg UInt8.toNat (List.mem_singleton.mp h)
          rw [toNat_octet (by omega)] at hval
          exact Char.toNat_inj.mp hval.symm
        · exfalso
          split at h
          · simp only [List.mem_cons, List.not_mem_nil, or_false] at h
            rcases h with h | h <;> exact high_ne_lf (by omega) (by omega) h
          · split at h
            · simp only [List.mem_cons, List.not_mem_nil, or_false] at h
              rcases h with h | h | h <;> exact high_ne_lf (by omega) (by omega) h
            · simp only [List.mem_cons, List.not_mem_nil, or_false] at h
              rcases h with h | h | h | h <;> exact high_ne_lf (by omega) (by omega) h
      rw [hc]
      exact List.mem_cons_self ..
    · exact List.mem_cons_of_mem c (ih h)

variable {started : Bool} {length : Option Nat}

/-- A line is read as a whole. -/
theorem reading_line {l : HeaderLine} (hl : l.WellFormed) {told : Option Nat}
    (h : headerLine (String.ofList (l.name ++ ':' :: l.given)) = .ok told) (rest : List UInt8) :
    reading (.header started length [] 0) (l.octets ++ rest) =
      reading (.header true (told.or length) [] 0) rest := by
  have hlf : 10 ∉ Utf8.octets l.front := by
    intro hmem
    have hchar := lf_mem_octets hmem
    rw [HeaderLine.front] at hchar
    rcases List.mem_append.mp hchar with hchar | hchar
    · rcases List.mem_append.mp hchar with hchar | hchar
      · exact hl.name_lf hchar
      · rcases List.mem_cons.mp hchar with hchar | hchar
        · cases hchar
        · exact hl.value_lf hchar
    · cases he : l.ending <;> rw [he] at hchar <;> revert hchar <;> decide
  have hoctets : l.octets = Utf8.octets l.front ++ [10] := by
    rw [HeaderLine.octets, octets_append]
    rfl
  have hshort := hl.short
  rw [hoctets, List.length_append, List.length_singleton] at hshort
  have hread : reading (.header started length [] 0) (Utf8.octets l.front ++ 10 :: rest) = _ :=
    reading_end hlf (by omega) rest
  rw [List.append_nil, List.reverse_reverse, ← hoctets, l.lineProgress_eq length h] at hread
  rw [hoctets, List.append_assoc]
  exact hread

/-- Lines of other names change nothing. -/
theorem reading_others {ls : List HeaderLine} (hls : ∀ l ∈ ls, l.WellFormed)
    (h : ∀ l ∈ ls, ¬ NamesLength l.name) (rest : List UInt8) :
    reading (.header true length [] 0) (ls.flatMap HeaderLine.octets ++ rest) =
      reading (.header true length [] 0) rest := by
  induction ls with
  | nil => rfl
  | cons l ls ih =>
    have hl := hls l (List.mem_cons_self ..)
    have hother := HeaderLine.headerLine_other hl.name_colon (h l (List.mem_cons_self ..))
    rw [List.flatMap_cons, List.append_assoc, reading_line hl hother, Option.none_or]
    exact ih (fun l' hl' => hls l' (List.mem_cons_of_mem l hl'))
      fun l' hl' => h l' (List.mem_cons_of_mem l hl')

/-- Lines of any names lead to a header that goes on. -/
theorem reading_before {ls : List HeaderLine} (hls : ∀ l ∈ ls, l.WellFormed) :
    ∃ started' length', ∀ rest,
      reading (.header started length [] 0) (ls.flatMap HeaderLine.octets ++ rest) =
        reading (.header started' length' [] 0) rest := by
  induction ls generalizing started length with
  | nil => exact ⟨started, length, fun _ => rfl⟩
  | cons l ls ih =>
    have hl := hls l (List.mem_cons_self ..)
    obtain ⟨told, htold⟩ : ∃ told,
        headerLine (String.ofList (l.name ++ ':' :: l.given)) = .ok told := by
      by_cases hname : NamesLength l.name
      · obtain ⟨n, hn, htells⟩ := hl.length hname
        exact ⟨some n, HeaderLine.headerLine_tells hl.name_colon htells hn⟩
      · exact ⟨none, HeaderLine.headerLine_other hl.name_colon hname⟩
    obtain ⟨started', length', hrest⟩ := ih (fun l' hl' => hls l' (List.mem_cons_of_mem l hl'))
    refine ⟨started', length', fun rest => ?_⟩
    rw [List.flatMap_cons, List.append_assoc, reading_line hl htold]
    exact hrest rest

/-- **Of several lengths the last one counts.** -/
theorem reading_lines {e : Envelope} (he : e.WellFormed) (rest : List UInt8) :
    reading .start (e.lines.flatMap HeaderLine.octets ++ rest) =
      reading (.header true (some e.body.length) [] 0) rest := by
  obtain ⟨before, l, behind, hlines, htells, hothers⟩ := he.told
  have hall := he.lines
  rw [hlines] at hall ⊢
  have hl := hall l (by simp)
  obtain ⟨started', length', hbefore⟩ : ∃ started' length', ∀ rest,
      reading (.header false none [] 0) (before.flatMap HeaderLine.octets ++ rest) =
        reading (.header started' length' [] 0) rest :=
    reading_before fun l' hl' => hall l' (List.mem_append_left _ hl')
  have htold := HeaderLine.headerLine_tells hl.name_colon htells he.fits
  rw [List.flatMap_append, List.flatMap_cons, List.append_assoc, List.append_assoc]
  show reading (.header false none [] 0) _ = _
  rw [hbefore, reading_line hl htold, Option.some_or]
  exact reading_others (fun l' hl' => hall l' (by simp [hl'])) hothers rest

/-- The empty line leads to the body. -/
theorem reading_ending (e : LineEnd) (n : Nat) (rest : List UInt8) :
    reading (.header true (some n) [] 0) (Utf8.octets e.chars ++ rest) = reading (.body n []) rest := by
  have hblank : lineProgress (some n) (Utf8.octets e.chars) = .ok (.body n []) :=
    lineProgress_blank n e.chars (by cases e <;> decide)
  cases e with
  | crlf => exact reading_secondLine n rest
  | lf =>
    have hread : reading (.header true (some n) [] 0) ([] ++ 10 :: rest) = _ :=
      reading_end List.not_mem_nil (by decide) rest
    rw [List.append_nil, List.reverse_reverse] at hread
    rw [show lineProgress (some n) ([] ++ [10]) = .ok (.body n []) from hblank] at hread
    exact hread

theorem decoded_ne (bs : List UInt8) : decoded bs ≠ .fault .lineTooLong ∧ decoded bs ≠ .ended := by
  unfold decoded
  cases h : decodeBody bs with
  | ok m => simp
  | error f =>
    unfold decodeBody at h
    cases hread : Message.read bs with
    | ok m => rw [hread] at h; cases h
    | error e => rw [hread] at h; cases h; simp

/-- **An envelope is read as its body**, whatever the body is and whatever stands behind. -/
theorem reads_envelope {e : Envelope} (he : e.WellFormed) : Reads e.octets (decoded e.body) where
  short := (decoded_ne e.body).1
  goesOn := (decoded_ne e.body).2
  reads rest := by
    have hbody : reading (.body e.body.length []) (e.body ++ rest) = _ :=
      reading_body (Nat.le_refl _) rest
    rw [Nat.sub_self, reading_body_zero, List.append_nil, List.reverse_reverse] at hbody
    rw [Envelope.octets, List.append_assoc, List.append_assoc, reading_lines he, reading_ending]
    exact hbody

/-- **Frames of any adapter stay in sync.** Envelopes with any well formed headers and any bodies arrive in
any chunks, at a reader that may be asked in between, and then the stream ends. Whoever goes on asking is
given what decoding the bodies gives, one after the other, and then the end of the stream: a body that is no
message is a fault in its own place, and has no part in how the next envelopes are read. -/
theorem envelopes_read (es : List Envelope) (hes : ∀ e ∈ es, e.WellFormed)
    (ds : List Delivery) (hds : arrived ds = es.flatMap Envelope.octets) (calls : Nat)
    (hc : es.length < calls) :
    (Reader.attend ds {}).1 ++ (Reader.attend ds {}).2.finish.toEnd calls =
      es.map (fun e => decoded e.body) ++ [.ended] := by
  have hreads : ∀ e ∈ es, Reads e.octets (decoded e.body) := fun e he => reads_envelope (hes e he)
  have hall : [] ++ (arrived ds ++ []) = es.flatMap Envelope.octets := by
    rw [List.nil_append, List.append_nil]
    exact hds
  obtain ⟨k, left, hk, hgave, hstands, hread⟩ :=
    Reader.attend_pieces hreads Reader.stands_new hall
  -- what the reader has not given yet are the envelopes behind the first `k`
  have hleft : left = (es.drop k).flatMap Envelope.octets ++ [] := by
    have hwhole : (es.take k).flatMap Envelope.octets ++ left =
        (es.take k).flatMap Envelope.octets ++ (es.drop k).flatMap Envelope.octets := by
      rw [← List.flatMap_append, List.take_append_drop, ← hds, ← hread, List.nil_append]
    rw [List.append_nil]
    exact List.append_cancel_left hwhole
  have hfinish := hstands.finish
  rw [hleft] at hfinish
  obtain ⟨r', hr', hrest⟩ :=
    hfinish.toEnd_pieces fun e he => hreads e (List.mem_of_mem_drop he)
  obtain ⟨more, hmore⟩ : ∃ more, calls = (es.drop k).length + (more + 1) := by
    refine ⟨calls - (es.drop k).length - 1, ?_⟩
    rw [List.length_drop]
    omega
  rw [hgave, hmore, hrest, hr'.toEnd_nothing, ← List.append_assoc, ← List.map_append,
    List.take_append_drop]

/-- An envelope whose body looks like a header. Its own header tells a length that does not count, has a line
of another name, and tells the length once more. -/
def imitation : Envelope where
  lines := [⟨"cONTENT-length".toList, " 3".toList, .lf⟩, ⟨"X-Trace".toList, " a:b".toList, .crlf⟩,
    ⟨" Content-LENGTH\t".toList, "  +027 ".toList, .crlf⟩]
  ending := .lf
  body := Utf8.encode "\r\n\r\nContent-Length: 2\r\n\r\n\x7b\x7d"

/-- The envelope of a message. -/
def ordinary : Envelope where
  lines := [⟨"Content-Length".toList, " 46".toList, .crlf⟩]
  ending := .crlf
  body := body initialized

theorem imitation_tells : HeaderLine.Tells ⟨" Content-LENGTH\t".toList, "  +027 ".toList, .crlf⟩ 27 where
  name := (sameLetters_iff _).mp (by decide +kernel)
  value := ⟨['+', '0', '2', '7'],
    ⟨[' ', ' '], [' '], by decide +kernel, List.all_eq_true.mp (by decide), List.all_eq_true.mp (by decide)⟩,
    ['0', '2', '7'], Or.inr rfl, List.cons_ne_nil _ _, List.all_eq_true.mp (by decide), rfl⟩

theorem imitation_wellFormed : imitation.WellFormed where
  lines := by
    have hfirst : HeaderLine.Tells ⟨"cONTENT-length".toList, " 3".toList, .lf⟩ 3 :=
      ⟨(sameLetters_iff _).mp (by decide +kernel),
        ['3'], ⟨[' '], [], by decide +kernel, List.all_eq_true.mp (by decide), List.forall_mem_nil _⟩,
        ['3'], Or.inl rfl, List.cons_ne_nil _ _, List.all_eq_true.mp (by decide), rfl⟩
    have hother : ¬ NamesLength "X-Trace".toList := by
      rw [← sameLetters_iff]
      decide +kernel
    simp only [imitation, List.forall_mem_cons]
    refine ⟨?_, ?_, ?_, List.forall_mem_nil _⟩
    · exact ⟨by decide +kernel, by decide +kernel, by decide +kernel, by decide +kernel,
        fun _ => ⟨3, by decide, hfirst⟩⟩
    · exact ⟨by decide +kernel, by decide +kernel, by decide +kernel, by decide +kernel,
        fun h => absurd h hother⟩
    · exact ⟨by decide +kernel, by decide +kernel, by decide +kernel, by decide +kernel,
        fun _ => ⟨27, by decide, imitation_tells⟩⟩
  fits := by decide +kernel
  told := by
    have hlength : imitation.body.length = 27 := by decide +kernel
    rw [hlength]
    exact ⟨imitation.lines.take 2, _, [], rfl, imitation_tells, List.forall_mem_nil _⟩

theorem ordinary_wellFormed : ordinary.WellFormed := by
  have htells : HeaderLine.Tells ⟨"Content-Length".toList, " 46".toList, .crlf⟩ 46 :=
    ⟨(sameLetters_iff _).mp (by decide +kernel),
      ['4', '6'], ⟨[' '], [], by decide +kernel, List.all_eq_true.mp (by decide), List.forall_mem_nil _⟩,
      ['4', '6'], Or.inl rfl, List.cons_ne_nil _ _, List.all_eq_true.mp (by decide), rfl⟩
  have hlength : ordinary.body.length = 46 := by decide +kernel
  refine ⟨?_, by decide +kernel, [], _, [], rfl, ?_, List.forall_mem_nil _⟩
  · simp only [ordinary, List.forall_mem_cons]
    exact ⟨⟨by decide +kernel, by decide +kernel, by decide +kernel, by decide +kernel,
      fun _ => ⟨46, by decide, htells⟩⟩, List.forall_mem_nil _⟩
  · rw [hlength]
    exact htells

/-- A body that looks like a header is a fault, and the message behind it is read. -/
theorem envelopes_read_imitation :
    ∃ f, (Reader.attend [.ask, .chunk imitation.octets, .ask, .chunk ordinary.octets] {}).1 ++
        (Reader.attend [.ask, .chunk imitation.octets, .ask, .chunk ordinary.octets] {}).2.finish.toEnd 3 =
      [.fault f, .message initialized, .ended] := by
  have hmessage : decodeBody (body initialized) = .ok initialized :=
    decodeBody_body (m := initialized) ⟨by decide, rfl, rfl, by decide⟩
  obtain ⟨f, hfault⟩ : ∃ f, decodeBody imitation.body = .error f := by
    have hbad : (decodeBody imitation.body).isOk = false := by decide +kernel
    cases h : decodeBody imitation.body with
    | error f => exact ⟨f, rfl⟩
    | ok m => rw [h] at hbad; cases hbad
  have hwhole : arrived [.ask, .chunk imitation.octets, .ask, .chunk ordinary.octets] =
      [imitation, ordinary].flatMap Envelope.octets := rfl
  refine ⟨f, (envelopes_read [imitation, ordinary] ?_ _ hwhole 3 (by decide)).trans ?_⟩
  · rw [List.forall_mem_cons, List.forall_mem_singleton]
    exact ⟨imitation_wellFormed, ordinary_wellFormed⟩
  · show [decoded imitation.body, decoded (body initialized), .ended] = _
    rw [decoded, decoded, hfault, hmessage]

end DebugHost.Frame
