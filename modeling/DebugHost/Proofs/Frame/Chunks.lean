import DebugHost.Proofs.Frame.Delivery

/-! # Reading in any chunks

Successive readings of a stream, up to the first that gives no message, depend on its octets alone:
`results` says what they give. `headerLines` finds the header lines of a stream line by line and
knows of no limit; a line is refused as too long just if it is longer than a line may be
(`lineTooLong_mem_results`). Both hold for every stream, also one that is no sequence of frames, and for
every way in which it may arrive (`read_any_chunks`). -/

namespace DebugHost.Frame

/-! ### What is left of a stream -/

variable {started : Bool} {length : Option Nat} {bs : List UInt8}

theorem reading_left_le (p : Progress) (bs : List UInt8) : (reading p bs).2.length ≤ bs.length := by
  induction bs generalizing p with
  | nil =>
    unfold reading
    split <;> exact Nat.le_refl 0
  | cons b bs ih =>
    unfold reading
    split
    · exact Nat.le_refl _
    · simp only
      split
      · exact Nat.le_succ _
      · exact Nat.le_succ_of_le (ih _)

/-- A message takes an octet at least. -/
theorem reading_left_lt {m : Message} {rest : List UInt8}
    (h : reading .start bs = (.message m, rest)) : rest.length < bs.length := by
  cases bs with
  | nil =>
    rw [reading_nothing] at h
    cases h
  | cons b bs =>
    rw [Progress.start, reading_header_cons] at h
    split at h
    · cases h
    · next p _ =>
      have hle := reading_left_le p bs
      rw [h] at hle
      exact Nat.lt_succ_of_le hle

/-! ### Successive readings -/

/-- What successive readings of an ended stream give, up to the first that gives no message. -/
def results (bs : List UInt8) : List Outcome :=
  match h : reading .start bs with
  | (.message m, rest) =>
    have := reading_left_lt h
    .message m :: results rest
  | (o, _) => [o]
termination_by bs.length

/-- What begins with the outcome `o` where `rest` is left of the stream. -/
def resultsFrom : Outcome × List UInt8 → List Outcome
  | (.message m, rest) => .message m :: results rest
  | (o, _) => [o]

theorem results_eq (bs : List UInt8) : results bs = resultsFrom (reading .start bs) := by
  rw [results]
  split
  · next h => exact (congrArg resultsFrom h).symm
  · next o rest hno h =>
    rw [h]
    cases o with
    | message m => exact absurd rfl (hno m)
    | fault f => rfl
    | ended => rfl

/-- Outcomes up to the first that is no message. -/
def untilStop : List Outcome → List Outcome
  | [] => []
  | .message m :: os => .message m :: untilStop os
  | o :: _ => [o]

/-- Whether an outcome is no message. -/
def Outcome.isStop : Outcome → Bool
  | .message _ => false
  | _ => true

/-- Some messages and then an outcome that is none. -/
def Complete (os : List Outcome) : Prop :=
  ∃ (ms : List Message) (last : Outcome), os = ms.map .message ++ [last] ∧ last.isStop = true

theorem complete_results (bs : List UInt8) : Complete (results bs) := by
  rw [results_eq]
  cases hread : reading .start bs with
  | mk o rest =>
    cases o with
    | message m =>
      have hlt := reading_left_lt hread
      obtain ⟨ms, last, hresults, hlast⟩ := complete_results rest
      exact ⟨m :: ms, last, congrArg (Outcome.message m :: ·) hresults, hlast⟩
    | fault f => exact ⟨[], .fault f, rfl, rfl⟩
    | ended => exact ⟨[], .ended, rfl, rfl⟩
termination_by bs.length

theorem untilStop_complete {os : List Outcome} (h : Complete os) : untilStop os = os := by
  obtain ⟨ms, last, rfl, hlast⟩ := h
  induction ms with
  | nil =>
    cases last with
    | message m => cases hlast
    | fault f => rfl
    | ended => rfl
  | cons m ms ih => exact congrArg (Outcome.message m :: ·) ih

namespace Reader

variable {r : Reader} {calls : Nat}

/-- A reader whose stream has ended gives the results of what it holds. -/
theorem Holds.results (h : r.Holds bs) (hc : bs.length < calls) :
    r.upToFault calls = Frame.results bs := by
  induction calls generalizing r bs with
  | zero => exact absurd hc (Nat.not_lt_zero _)
  | succ calls ih =>
    obtain ⟨o, r', hn, hf⟩ := next_ended h.full h.ended
    rw [Reader.upToFault, hn, results_eq]
    cases hf with
    | gives full ended gave left =>
      rw [List.append_nil, h.reads] at gave left
      cases hread : reading .start bs with
      | mk o' rest =>
        rw [hread] at gave left
        subst gave
        cases o' with
        | message m =>
          have hlt := reading_left_lt hread
          have hleft : rest = _ := left (by simp)
          rw [List.append_nil] at hleft
          subst hleft
          have hrest : Holds (restart _) _ := ⟨full, ended.trans h.ended, rfl⟩
          exact congrArg (Outcome.message m :: ·) (ih hrest (by omega))
        | fault f => rfl
        | ended => rfl

/-- What is given while a stream arrives, and afterwards, is what its octets give. -/
theorem Stands.results {ds : List Delivery} (h : r.Stands bs)
    (hc : (bs ++ arrived ds).length < calls) :
    untilStop ((attend ds r).1 ++ (attend ds r).2.finish.upToFault calls) =
      Frame.results (bs ++ arrived ds) := by
  induction ds generalizing r bs with
  | nil =>
    rw [arrived, List.append_nil] at hc ⊢
    show untilStop (r.finish.upToFault calls) = _
    rw [h.finish.results hc]
    exact untilStop_complete (complete_results bs)
  | cons d ds ih =>
    cases d with
    | chunk c =>
      rw [arrived, ← List.append_assoc] at hc ⊢
      exact ih (h.push c) hc
    | ask =>
      rw [arrived] at hc ⊢
      cases hn : r.next with
      | mk o r' =>
        cases o with
        | none =>
          rw [attend, hn]
          exact ih (h.waits hn) hc
        | some o =>
          obtain ⟨left, hstands, hgives⟩ := h.gives hn
          obtain ⟨hgave, hleft⟩ := hgives (arrived ds)
          rw [attend, hn, results_eq]
          cases hread : reading .start (bs ++ arrived ds) with
          | mk o' rest =>
            rw [hread] at hgave hleft
            subst hgave
            cases o' with
            | message m =>
              have hlt := reading_left_lt hread
              have hrest : rest = left ++ arrived ds := hleft (by simp)
              rw [hrest] at hlt ⊢
              exact congrArg (Outcome.message m :: ·) (ih hstands (by omega))
            | fault f => rfl
            | ended => rfl

end Reader

/-! ### Header lines -/

/-- The first line with its line feed, and what stands behind it; without a line feed all octets are the
line. -/
def firstLine (bs : List UInt8) : List UInt8 × List UInt8 := (Reader.splitLine bs).getD (bs, [])

theorem length_firstLine_lt (hne : bs ≠ []) : (firstLine bs).2.length < bs.length := by
  unfold firstLine
  cases hsplit : Reader.splitLine bs with
  | none => exact List.length_pos_iff.mpr hne
  | some p =>
    obtain ⟨init, -, -, rfl⟩ := Reader.splitLine_some hsplit
    rw [Option.getD_some, List.length_append, List.length_cons]
    omega

/-- The header lines of a stream whose header has told `length` so far, of any length, up to the first
line or body that is at fault. -/
def headerLines (length : Option Nat) (bs : List UInt8) : List (List UInt8) :=
  if hne : bs = [] then []
  else
    have := length_firstLine_lt hne
    let rest := (firstLine bs).2
    (firstLine bs).1 ::
      match lineProgress length (firstLine bs).1 with
      | .error _ => []
      | .ok (.header _ told _ _) => headerLines told rest
      | .ok (.body n _) =>
        match decodeBody (rest.take n) with
        | .error _ => []
        | .ok _ => headerLines none (rest.drop n)
termination_by bs.length
decreasing_by
  · exact this
  · exact Nat.lt_of_le_of_lt (List.drop_sublist n rest).length_le this

theorem headerLines_nil (length : Option Nat) : headerLines length [] = [] := by
  rw [headerLines, dif_pos rfl]

theorem firstLine_mem_headerLines (length : Option Nat) (hne : bs ≠ []) :
    (firstLine bs).1 ∈ headerLines length bs := by
  rw [headerLines, dif_neg hne]
  exact List.mem_cons_self ..

/-- A line that is too long is refused. -/
theorem reading_longLine (hlong : maxLine < (firstLine bs).1.length) :
    (reading (.header started length [] 0) bs).1 = .fault .lineTooLong := by
  have hpos : 0 < (firstLine bs).1.length := Nat.zero_lt_of_lt hlong
  unfold firstLine at hlong hpos
  cases hsplit : Reader.splitLine bs with
  | none =>
    rw [hsplit, Option.getD_none] at hlong hpos
    have hread : (reading (.header started length [] 0) (bs ++ [])).1 = _ := reading_long
      (fun h => Reader.splitLine_none hsplit (List.dropLast_subset _ h)) (List.length_pos_iff.mp hpos)
      (by rwa [Nat.zero_add]) []
    rwa [List.append_nil] at hread
  | some p =>
    obtain ⟨line, rest⟩ := p
    rw [hsplit, Option.getD_some] at hlong
    obtain ⟨init, rfl, hlf, rfl⟩ := Reader.splitLine_some hsplit
    have hread : (reading (.header started length [] 0) (init ++ [10] ++ rest)).1 = _ := reading_long
      (by rwa [List.dropLast_concat]) (List.concat_ne_nil _ _) (by rwa [Nat.zero_add]) rest
    rwa [List.append_assoc] at hread

/-- A line that is not too long leads on, or is faulty. -/
theorem reading_shortLine (hne : bs ≠ []) (hshort : (firstLine bs).1.length ≤ maxLine) :
    reading (.header started length [] 0) bs =
      match lineProgress length (firstLine bs).1 with
      | .error f => (.fault f, (firstLine bs).2)
      | .ok p => reading p (firstLine bs).2 := by
  unfold firstLine at hshort ⊢
  cases hsplit : Reader.splitLine bs with
  | none =>
    rw [hsplit, Option.getD_none] at hshort
    have hcount : 0 + bs.length ≠ 0 := by
      rw [Nat.zero_add]
      exact Nat.ne_of_gt (List.length_pos_iff.mpr hne)
    have hread : reading (.header started length [] 0) (bs ++ []) = _ :=
      reading_piece (Reader.splitLine_none hsplit) (by rwa [Nat.zero_add]) []
    rw [List.append_nil, List.append_nil, reading_header_nil, Progress.close, if_neg hcount,
      List.reverse_reverse] at hread
    rw [hread, Option.getD_none]
    cases hline : lineProgress length bs with
    | error f => rfl
    | ok p => exact (reading_lineProgress hline).symm
  | some p =>
    obtain ⟨line, rest⟩ := p
    rw [hsplit, Option.getD_some] at hshort
    rw [Option.getD_some]
    obtain ⟨init, rfl, hlf, rfl⟩ := Reader.splitLine_some hsplit
    rw [List.length_append, List.length_singleton] at hshort
    have hread : reading (.header started length [] 0) (init ++ 10 :: rest) = _ :=
      reading_end hlf (by omega) rest
    rw [List.append_nil, List.reverse_reverse] at hread
    exact hread

theorem decodeBody_error {f : Fault} (h : decodeBody bs = .error f) : f ≠ .lineTooLong := by
  unfold decodeBody at h
  cases hread : Message.read bs with
  | error e =>
    rw [hread] at h
    cases h
    simp
  | ok m =>
    rw [hread] at h
    cases h

/-- What a body gives that begins a stream. -/
theorem reading_wholeBody {n : Nat} (h : n ≤ bs.length) :
    reading (.body n []) bs = (decoded (bs.take n), bs.drop n) := by
  have hlength : (bs.take n).length = n := by rw [List.length_take, Nat.min_eq_left h]
  have hread : reading (.body n []) (bs.take n ++ bs.drop n) = _ :=
    reading_body (Nat.le_of_eq hlength) (bs.drop n)
  rw [List.take_append_drop, hlength, Nat.sub_self, reading_body_zero, List.append_nil,
    List.reverse_reverse] at hread
  exact hread

/-- Where a stream goes on behind a header, the lines of the next header are what may be too long. -/
theorem lineTooLong_mem_body {n : Nat}
    (hnext : .fault .lineTooLong ∈ resultsFrom (reading .start (bs.drop n)) ↔
      ∃ line ∈ headerLines none (bs.drop n), maxLine < line.length) :
    .fault .lineTooLong ∈ resultsFrom (reading (.body n []) bs) ↔
      ∃ line ∈ (match decodeBody (bs.take n) with
        | .error _ => []
        | .ok _ => headerLines none (bs.drop n)), maxLine < line.length := by
  rcases Nat.lt_or_ge bs.length n with hlt | hle
  · obtain ⟨f, hf, hread⟩ := breaks_body hlt
    have hdrop : bs.drop n = [] := List.drop_eq_nil_iff.mpr (Nat.le_of_lt hlt)
    have hnone : ∀ line, line ∉ (match decodeBody (bs.take n) with
        | .error _ => []
        | .ok _ => headerLines none (bs.drop n)) := by
      intro line
      rw [hdrop, headerLines_nil]
      split <;> exact List.not_mem_nil
    rw [hread]
    constructor
    · intro h
      exact absurd (Outcome.fault.inj (List.mem_singleton.mp h)).symm hf
    · rintro ⟨line, hline, -⟩
      exact absurd hline (hnone line)
  · rw [reading_wholeBody hle, decoded]
    cases hdecode : decodeBody (bs.take n) with
    | error f =>
      have hf := decodeBody_error hdecode
      simp [resultsFrom, hf.symm]
    | ok m =>
      rw [← results_eq] at hnext
      simpa [resultsFrom] using hnext

/-- **A line is refused as too long just if it is longer than a line may be.** -/
theorem lineTooLong_mem_results (started : Bool) (length : Option Nat) (bs : List UInt8) :
    .fault .lineTooLong ∈ resultsFrom (reading (.header started length [] 0) bs) ↔
      ∃ line ∈ headerLines length bs, maxLine < line.length := by
  by_cases hne : bs = []
  · subst hne
    rw [headerLines_nil, reading_header_nil]
    cases started <;> simp [Progress.close, Progress.stop, resultsFrom]
  · have hlt := length_firstLine_lt hne
    rw [headerLines, dif_neg hne]
    by_cases hlong : maxLine < (firstLine bs).1.length
    · cases hread : reading (.header started length [] 0) bs with
      | mk o rest =>
        have ho : o = .fault .lineTooLong := by rw [← reading_longLine hlong, hread]
        subst ho
        exact ⟨fun _ => ⟨_, List.mem_cons_self .., hlong⟩, fun _ => List.mem_cons_self ..⟩
    · have hfirst : ∀ lines, (∃ line ∈ (firstLine bs).1 :: lines, maxLine < line.length) ↔
          ∃ line ∈ lines, maxLine < line.length := fun lines => by simp [hlong]
      rw [reading_shortLine hne (Nat.le_of_not_lt hlong), hfirst]
      cases hline : lineProgress length (firstLine bs).1 with
      | error f =>
        have hf := lineProgress_error hline
        simp [resultsFrom, hf.symm]
      | ok p =>
        rcases lineProgress_ok hline with ⟨n, rfl⟩ | ⟨told, rfl⟩
        · have hdrop : ((firstLine bs).2.drop n).length < bs.length :=
            Nat.lt_of_le_of_lt (List.drop_sublist n _).length_le hlt
          exact lineTooLong_mem_body (lineTooLong_mem_results false none _)
        · exact lineTooLong_mem_results true told _
termination_by bs.length

/-! ### Every way of arrival -/

/-- What a reader gives while its stream arrives and when it has ended, up to the first that is no
message. As every message takes an octet, it need not be asked more often in the end. -/
def given (ds : List Delivery) : List Outcome :=
  untilStop ((Reader.attend ds {}).1 ++
    (Reader.attend ds {}).2.finish.upToFault ((arrived ds).length + 1))

theorem given_eq (ds : List Delivery) : given ds = results (arrived ds) :=
  Reader.stands_new.results (Nat.lt_succ_self _)

/-- **Reading does not depend on chunks.** The same octets, which may be any, arrive twice in any chunks
at readers that are asked in between at any time. Both give the same: messages, and then the same fault
or the end of the stream. That a header line is too long they say just if there is one that is longer
than a line may be, its end included. -/
theorem read_any_chunks (ds ds' : List Delivery) (h : arrived ds = arrived ds') :
    given ds = given ds' ∧
      (∃ (ms : List Message) (last : Outcome), given ds = ms.map .message ++ [last] ∧
        last.isStop = true) ∧
      (.fault .lineTooLong ∈ given ds ↔
        ∃ line ∈ headerLines none (arrived ds), maxLine < line.length) := by
  have hlong := lineTooLong_mem_results false none (arrived ds)
  rw [given_eq, given_eq, ← h]
  rw [← Progress.start, ← results_eq] at hlong
  exact ⟨rfl, complete_results _, hlong⟩

theorem splitLine_append {init : List UInt8} (h : 10 ∉ init) (rest : List UInt8) :
    Reader.splitLine (init ++ 10 :: rest) = some (init ++ [10], rest) := by
  induction init with
  | nil => rfl
  | cons b init ih =>
    have hb := List.ne_of_not_mem_cons h
    rw [List.cons_append, Reader.splitLine, if_neg hb.symm, ih (List.not_mem_of_not_mem_cons h)]
    rfl

/-- As many letters as a line may have, and no line feed. -/
def longLine : List UInt8 := List.replicate maxLine 65

/-- A line that is one octet too long arrives as a whole, or its line feed apart. -/
theorem read_any_chunks_longLine :
    given [.chunk longLine, .ask, .chunk [10]] = given [.chunk (longLine ++ [10])] ∧
      .fault .lineTooLong ∈ given [.chunk longLine, .ask, .chunk [10]] := by
  have hlf : 10 ∉ longLine := fun h => by
    have hletter : (10 : UInt8) = 65 := List.eq_of_mem_replicate h
    exact absurd hletter (by decide)
  have hfirst : firstLine (longLine ++ [10]) = (longLine ++ [10], []) := by
    rw [firstLine, splitLine_append hlf]
    rfl
  obtain ⟨hsame, -, hlong⟩ := read_any_chunks [.chunk longLine, .ask, .chunk [10]]
    [.chunk (longLine ++ [10])] (by simp only [arrived, List.append_nil])
  refine ⟨hsame, hlong.mpr ⟨longLine ++ [10], ?_, ?_⟩⟩
  · have hmem := firstLine_mem_headerLines none (List.concat_ne_nil 10 longLine)
    rw [hfirst] at hmem
    exact hmem
  · rw [List.length_append, longLine, List.length_replicate]
    exact Nat.lt_succ_self maxLine

end DebugHost.Frame
