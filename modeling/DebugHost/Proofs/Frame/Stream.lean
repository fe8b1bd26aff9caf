import DebugHost.Frame.Reader
import Mathlib.Tactic.SplitIfs

/-! # Reading octet by octet

What a reader gives depends on the octets of the stream alone, and not on the chunks in which they
arrive, nor on the pieces in which they are taken over. `reading` says what it is, one octet after the
other; a step of the reader leads from octets and progress to octets and progress with the same
`reading` (`step_keeps`), so that a reader whose stream has ended gives it (`next_ended`). -/

namespace DebugHost.Frame

/-! ### What the octets say -/

/-- What a complete body gives. -/
def decoded (bs : List UInt8) : Outcome :=
  match decodeBody bs with
  | .ok m => .message m
  | .error f => .fault f

/-- Where a complete header line leads. -/
def lineProgress (length : Option Nat) (line : List UInt8) : Except Fault Progress :=
  match lineText line with
  | .error f => .error f
  | .ok "" =>
    match length with
    | none => .error .lengthMissing
    | some n => .ok (.body n [])
  | .ok text =>
    match headerLine text with
    | .error f => .error f
    | .ok told => .ok (.header true (told.or length) [] 0)

namespace Progress

/-- Where one more octet leads. -/
def add : Progress → UInt8 → Except Fault Progress
  | .header started length line count, b =>
    if maxLine ≤ count then .error .lineTooLong
    else if b = 10 then lineProgress length (b :: line).reverse
    else .ok (.header started length (b :: line) (count + 1))
  | .body missing octets, b => .ok (.body (missing - 1) (b :: octets))

/-- What a complete frame gives. -/
def done? : Progress → Option Outcome
  | .body 0 octets => some (decoded octets.reverse)
  | _ => none

/-- What the end of the stream gives when no header line is at hand. -/
def stop : Progress → Outcome
  | .header started .. => if started then .fault .endInHeader else .ended
  | .body 0 octets => decoded octets.reverse
  | .body .. => .fault .endInBody

/-- What the end of the stream gives: it also ends a header line. -/
def close : Progress → Outcome
  | .header started length line count =>
    if count = 0 then (Progress.header started length line count).stop
    else
      match lineProgress length line.reverse with
      | .error f => .fault f
      | .ok p => p.stop
  | p => p.stop

end Progress

/-- What the octets of an ended stream give, and what is left of them. -/
def reading (p : Progress) (bs : List UInt8) : Outcome × List UInt8 :=
  match p.done? with
  | some o => (o, bs)
  | none =>
    match bs with
    | [] => (p.close, [])
    | b :: bs =>
      match p.add b with
      | .error f => (.fault f, bs)
      | .ok p => reading p bs

theorem reading_header_nil (started : Bool) (length : Option Nat) (line : List UInt8) (count : Nat) :
    reading (.header started length line count) [] =
      ((Progress.header started length line count).close, []) := rfl

theorem reading_header_cons (started : Bool) (length : Option Nat) (line : List UInt8) (count : Nat)
    (b : UInt8) (bs : List UInt8) :
    reading (.header started length line count) (b :: bs) =
      match (Progress.header started length line count).add b with
      | .error f => (.fault f, bs)
      | .ok p => reading p bs := rfl

theorem reading_body_zero (octets bs : List UInt8) :
    reading (.body 0 octets) bs = (decoded octets.reverse, bs) := by
  cases bs <;> rfl

theorem reading_body_nil (missing : Nat) (octets : List UInt8) :
    reading (.body (missing + 1) octets) [] = (.fault .endInBody, []) := rfl

theorem reading_body_cons (missing : Nat) (octets : List UInt8) (b : UInt8) (bs : List UInt8) :
    reading (.body (missing + 1) octets) (b :: bs) = reading (.body missing (b :: octets)) bs := rfl

/-! ### Pieces of several octets -/

variable {started : Bool} {length : Option Nat} {line : List UInt8} {count : Nat}

/-- A piece of a header line that is short enough is put onto it. -/
theorem reading_piece {piece : List UInt8} (hp : 10 ∉ piece) (hl : count + piece.length ≤ maxLine)
    (bs : List UInt8) :
    reading (.header started length line count) (piece ++ bs) =
      reading (.header started length (piece.reverse ++ line) (count + piece.length)) bs := by
  induction piece generalizing line count with
  | nil => rfl
  | cons b piece ih =>
    have hb := List.ne_of_not_mem_cons hp
    rw [List.length_cons] at hl ⊢
    rw [List.cons_append, reading_header_cons, Progress.add, if_neg (by omega), if_neg hb.symm]
    simp only
    rw [ih (List.not_mem_of_not_mem_cons hp) (by omega), List.reverse_cons, List.append_assoc, Nat.add_right_comm]
    rfl

/-- A header line that is too long is refused, wherever its end may be. -/
theorem reading_long {piece : List UInt8} (hp : 10 ∉ piece.dropLast) (hne : piece ≠ [])
    (hl : maxLine < count + piece.length) (bs : List UInt8) :
    (reading (.header started length line count) (piece ++ bs)).1 = .fault .lineTooLong := by
  induction piece generalizing line count with
  | nil => exact absurd rfl hne
  | cons b piece ih =>
    rw [List.length_cons] at hl
    rw [List.cons_append, reading_header_cons, Progress.add]
    by_cases hc : maxLine ≤ count
    · rw [if_pos hc]
    · have hpiece : piece ≠ [] := by
        rintro rfl
        exact absurd hl (by rw [List.length_nil]; omega)
      rw [List.dropLast_cons_of_ne_nil hpiece] at hp
      have hb := List.ne_of_not_mem_cons hp
      rw [if_neg hc, if_neg hb.symm]
      exact ih (List.not_mem_of_not_mem_cons hp) hpiece (by omega)

/-- The end of a header line that is short enough. -/
theorem reading_end {piece : List UInt8} (hp : 10 ∉ piece) (hl : count + piece.length < maxLine)
    (bs : List UInt8) :
    reading (.header started length line count) (piece ++ 10 :: bs) =
      match lineProgress length ((piece ++ [10]).reverse ++ line).reverse with
      | .error f => (.fault f, bs)
      | .ok p => reading p bs := by
  have hreverse : (piece ++ [10]).reverse = 10 :: piece.reverse := List.reverse_append
  rw [reading_piece hp (Nat.le_of_lt hl), reading_header_cons, Progress.add, if_neg (by omega),
    if_pos rfl, hreverse]
  rfl

/-- Octets of a body are put onto it. -/
theorem reading_body {missing : Nat} {octets piece : List UInt8} (hl : piece.length ≤ missing)
    (bs : List UInt8) :
    reading (.body missing octets) (piece ++ bs) =
      reading (.body (missing - piece.length) (piece.reverse ++ octets)) bs := by
  induction piece generalizing missing octets with
  | nil => rfl
  | cons b piece ih =>
    obtain ⟨missing, rfl⟩ := Nat.exists_eq_succ_of_ne_zero (Nat.ne_zero_of_lt hl)
    rw [List.cons_append, reading_body_cons, ih (Nat.le_of_succ_le_succ hl), List.reverse_cons,
      List.append_assoc, List.length_cons, Nat.succ_sub_succ]
    rfl

/-- Behind the end of a header line there is none at hand. -/
theorem lineProgress_ok {p : Progress} (h : lineProgress length line = .ok p) :
    (∃ n, p = .body n []) ∨ ∃ told, p = .header true told [] 0 := by
  unfold lineProgress at h
  split at h
  · cases h
  · split at h
    · cases h
    · cases h
      exact Or.inl ⟨_, rfl⟩
  · split at h
    · cases h
    · cases h
      exact Or.inr ⟨_, rfl⟩

theorem reading_lineProgress {p : Progress} (h : lineProgress length line = .ok p) :
    reading p [] = (p.stop, []) := by
  rcases lineProgress_ok h with ⟨n, rfl⟩ | ⟨told, rfl⟩
  · cases n with
    | zero => exact reading_body_zero [] []
    | succ n => exact reading_body_nil n []
  · exact reading_header_nil ..

/-! ### What has arrived -/

namespace Source

/-- The octets that have arrived and have not been read. -/
def left (s : Source) : List UInt8 := s.buffered ++ s.chunks.flatten

/-- No chunk is empty. -/
def Full (s : Source) : Prop := ∀ c ∈ s.chunks, c ≠ []

theorem foldl_length (n : Nat) (cs : List (List UInt8)) :
    cs.foldl (fun n c => n + c.length) n = n + cs.flatten.length := by
  induction cs generalizing n with
  | nil => rfl
  | cons c cs ih => rw [List.foldl_cons, ih, List.flatten_cons, List.length_append, Nat.add_assoc]

theorem size_eq (s : Source) : s.size = s.left.length := by
  rw [size, foldl_length, left, List.length_append]

variable {s : Source}

theorem fill_ended (s : Source) (most : Nat) : (s.fill most).ended = s.ended := by
  unfold fill
  split
  · split <;> rfl
  · rfl

theorem fill_left (s : Source) (most : Nat) : (s.fill most).left = s.left := by
  obtain ⟨bs, cs, e⟩ := s
  unfold fill
  split
  · next c rest h1 h2 =>
    subst h1 h2
    split
    · simp only [left, List.flatten_cons, List.nil_append]
      rw [← List.append_assoc, List.take_append_drop]
    · rfl
  · rfl

theorem Full.fill (h : s.Full) (most : Nat) : (s.fill most).Full := by
  obtain ⟨bs, cs, e⟩ := s
  unfold Source.fill
  split
  · next c rest h1 h2 =>
    subst h1 h2
    split
    · next hlt =>
      intro c' hc'
      rcases List.mem_cons.mp hc' with rfl | hc'
      · exact fun hnil => absurd (List.drop_eq_nil_iff.mp hnil) (Nat.not_le.mpr hlt)
      · exact h c' (List.mem_cons_of_mem c hc')
    · exact fun c' hc' => h c' (List.mem_cons_of_mem c hc')
  · exact h

/-- Nothing is taken over only if nothing is left. -/
theorem left_of_fill {most : Nat} (h : s.Full) (hm : 0 < most) (hb : (s.fill most).buffered = []) :
    s.left = [] := by
  obtain ⟨bs, cs, e⟩ := s
  unfold fill at hb
  split at hb
  · next c rest h1 h2 =>
    subst h1 h2
    have hc := h c (List.mem_cons_self ..)
    split at hb
    · rcases List.take_eq_nil_iff.mp hb with h0 | hnil
      · omega
      · exact absurd hnil hc
    · exact absurd hb hc
  · next hno =>
    cases hb
    cases cs with
    | nil => rfl
    | cons c rest => exact absurd rfl (hno c rest rfl)

end Source

/-! ### Steps of a reader -/

namespace Reader

theorem splitLine_some {bs piece rest : List UInt8} (h : splitLine bs = some (piece, rest)) :
    ∃ init, piece = init ++ [10] ∧ 10 ∉ init ∧ bs = init ++ 10 :: rest := by
  induction bs generalizing piece with
  | nil => cases h
  | cons b bs ih =>
    rw [splitLine] at h
    split at h
    · next hb =>
      cases h
      exact ⟨[], by rw [hb]; rfl, List.not_mem_nil, by rw [hb]; rfl⟩
    · next hb =>
      obtain ⟨⟨a, r⟩, hr, h⟩ := Option.map_eq_some_iff.mp h
      cases h
      obtain ⟨init, rfl, hinit, rfl⟩ := ih hr
      exact ⟨b :: init, rfl, List.not_mem_cons_of_ne_of_not_mem (Ne.symm hb) hinit, rfl⟩

theorem splitLine_none {bs : List UInt8} (h : splitLine bs = none) : 10 ∉ bs := by
  induction bs with
  | nil => exact List.not_mem_nil
  | cons b bs ih =>
    rw [splitLine] at h
    split at h
    · cases h
    · next hb =>
      exact List.not_mem_cons_of_ne_of_not_mem (Ne.symm hb) (ih (Option.map_eq_none_iff.mp h))

theorem lineDone_eq (s : Source) (length : Option Nat) (line : List UInt8) :
    lineDone s length line = (lineProgress length line).map fun p => ⟨s, p⟩ := by
  unfold lineDone lineProgress
  cases lineText line with
  | error f => rfl
  | ok text =>
    by_cases ht : text = ""
    · subst ht
      cases length <;> rfl
    · simp only
      cases headerLine text <;> rfl

/-- Where a reader gets while it reads the octets that have arrived, and `more` may follow: it has the
same reading as before, or it gave what the reading says and starts anew. -/
inductive Follows (more : List UInt8) (r : Reader) : Option Outcome → Reader → Prop
  | on {r' : Reader} (full : r'.source.Full) (ended : r'.source.ended = r.source.ended)
      (same : reading r.progress (r.source.left ++ more) =
        reading r'.progress (r'.source.left ++ more)) : Follows more r none r'
  | gives {o : Outcome} {s : Source} (full : s.Full) (ended : s.ended = r.source.ended)
      (gave : (reading r.progress (r.source.left ++ more)).1 = o)
      (left : o ≠ .fault .lineTooLong →
        (reading r.progress (r.source.left ++ more)).2 = s.left ++ more) :
      Follows more r (some o) (restart s)

/-- What is left to do for a reader: more than the steps that it needs to the end. -/
def work (r : Reader) : Nat :=
  2 * r.source.left.length +
    match r.progress with
    | .header _ _ _ count => if count = 0 then 1 else 2
    | .body .. => 1

variable {r r' : Reader} {o : Option Outcome} {more : List UInt8}

theorem Follows.of_fill {most : Nat} (h : Follows more { r with source := r.source.fill most } o r') :
    Follows more r o r' := by
  cases h with
  | on full ended same =>
    rw [Source.fill_ended] at ended
    rw [Source.fill_left] at same
    exact .on full ended same
  | gives full ended gave left =>
    rw [Source.fill_ended] at ended
    rw [Source.fill_left] at gave left
    exact .gives full ended gave left

theorem Follows.decoded {s : Source} (hs : s.Full) (octets : List UInt8) :
    Follows more ⟨s, .body 0 octets⟩ (some (decoded octets.reverse)) (restart s) :=
  .gives hs rfl (by rw [reading_body_zero]) fun _ => by rw [reading_body_zero]

theorem step_body {s : Source} {missing : Nat} {octets : List UInt8} (hs : s.Full)
    (hm : s.ended = true → more = []) (h : step ⟨s, .body missing octets⟩ = some (o, r')) :
    Follows more ⟨s, .body missing octets⟩ o r' ∧
      (o = none → work r' < work ⟨s, .body missing octets⟩) := by
  cases missing with
  | zero =>
    have hd : Follows more ⟨s, .body 0 octets⟩ _ _ := .decoded hs octets
    unfold DebugHost.Frame.decoded at hd
    simp only [step, if_pos] at h
    split at h
    · next m hdecode =>
      cases h
      rw [hdecode] at hd
      exact ⟨hd, by simp⟩
    · next f hdecode =>
      cases h
      rw [hdecode] at hd
      exact ⟨hd, by simp⟩
  | succ missing =>
    simp only [step] at h
    rw [if_neg (Nat.succ_ne_zero missing)] at h
    have hmost : 0 < max capacity (missing + 1) :=
      Nat.lt_of_lt_of_le missing.succ_pos (Nat.le_max_right ..)
    have hleft := s.fill_left (max capacity (missing + 1))
    have hfull := hs.fill (max capacity (missing + 1))
    have hended := s.fill_ended (max capacity (missing + 1))
    have hempty := Source.left_of_fill hs hmost
    generalize s.fill (max capacity (missing + 1)) = s' at h hleft hfull hended hempty
    split at h
    · next hnil =>
      -- the stream has ended within the body
      split at h
      · next he =>
        cases h
        have hmore : s.left ++ more = [] := by
          rw [hempty hnil, hm (hended ▸ he)]
          rfl
        refine ⟨.gives hfull hended ?_ fun _ => ?_, by simp⟩
        · rw [hmore, reading_body_nil]
        · rw [hmore, hleft, hmore, reading_body_nil]
      · cases h
    · next hne =>
      cases h
      have hsplit : s.left = s'.buffered.take (missing + 1) ++
          (s'.buffered.drop (missing + 1) ++ s'.chunks.flatten) := by
        rw [← hleft, Source.left, ← List.append_assoc, List.take_append_drop]
      have htake : (s'.buffered.take (missing + 1)).length ≤ missing + 1 :=
        List.length_take_le ..
      refine ⟨.on hfull hended ?_, fun _ => ?_⟩
      · rw [hsplit, List.append_assoc]
        exact reading_body htake _
      · have hlt : 0 < (s'.buffered.take (missing + 1)).length := by
          refine List.length_pos_iff.mpr fun hnil => ?_
          rcases List.take_eq_nil_iff.mp hnil with h | h
          · cases h
          · exact hne h
        show 2 * (s'.buffered.drop (missing + 1) ++ s'.chunks.flatten).length + 1 <
          2 * s.left.length + 1
        rw [hsplit]
        simp only [List.length_append]
        omega

/-- A header line that is complete leads on, or is faulty. -/
theorem follows_line {s s' : Source} {p : Progress} (hs : s'.Full) (he : s'.ended = s.ended)
    (hsame : reading p (s.left ++ more) =
      match lineProgress length line with
      | .error f => (.fault f, s'.left ++ more)
      | .ok p => reading p (s'.left ++ more))
    (h : (match lineDone s' length line with
      | .error f => some (some (.fault f), restart s')
      | .ok r => some (none, r)) = some (o, r')) :
    Follows more ⟨s, p⟩ o r' ∧ (o = none → work r' = 2 * s'.left.length + 1) := by
  rw [lineDone_eq] at h
  cases hl : lineProgress length line with
  | error f =>
    rw [hl] at h hsame
    cases h
    exact ⟨.gives hs he (by rw [hsame]) fun _ => by rw [hsame], by simp⟩
  | ok p' =>
    rw [hl] at h hsame
    cases h
    refine ⟨.on hs he hsame, fun _ => ?_⟩
    rcases lineProgress_ok hl with ⟨n, rfl⟩ | ⟨told, rfl⟩ <;> rfl

theorem work_header (s : Source) :
    2 * s.left.length + 1 ≤ work ⟨s, .header started length line count⟩ := by
  have h : 1 ≤ if count = 0 then 1 else 2 := by
    split <;> omega
  exact Nat.add_le_add_left h _

/-- The stream has ended, which ends the line at hand. -/
theorem follows_close {s : Source} (hs : s.Full) (hleft : s.left = []) (hmore : more = [])
    (h : (if count = 0 then
        if started then some (some (.fault .endInHeader), restart s)
        else some (some .ended, restart s)
      else
        match lineDone s length line.reverse with
        | .error f => some (some (.fault f), restart s)
        | .ok r => some (none, r)) = some (o, r')) :
    Follows more ⟨s, .header started length line count⟩ o r' ∧
      (o = none → work r' < work ⟨s, .header started length line count⟩) := by
  have hall : s.left ++ more = [] := by
    rw [hleft, hmore]
    rfl
  have hread := reading_header_nil started length line count
  rw [Progress.close] at hread
  by_cases hc : count = 0
  · rw [if_pos hc] at h hread
    cases started with
    | true =>
      cases h
      exact ⟨.gives hs rfl (by rw [hall, hread]; rfl) fun _ => by rw [hall, hread], by simp⟩
    | false =>
      cases h
      exact ⟨.gives hs rfl (by rw [hall, hread]; rfl) fun _ => by rw [hall, hread], by simp⟩
  · rw [if_neg hc] at h hread
    have hsame : reading (.header started length line count) (s.left ++ more) =
        match lineProgress length line.reverse with
        | .error f => (.fault f, s.left ++ more)
        | .ok p => reading p (s.left ++ more) := by
      rw [hall, hread]
      cases hl : lineProgress length line.reverse with
      | error f => rfl
      | ok p => exact (reading_lineProgress hl).symm
    obtain ⟨hfollows, hwork⟩ := follows_line hs rfl hsame h
    refine ⟨hfollows, fun ho => ?_⟩
    rw [hwork ho]
    show _ < 2 * s.left.length + if count = 0 then 1 else 2
    rw [if_neg hc]
    omega

/-- What is taken over has no end of a line in it. -/
theorem follows_piece {s : Source} (hs : s.Full) (hne : s.buffered ≠ [])
    (hsplit : splitLine s.buffered = none)
    (h : (if maxLine < count + s.buffered.length then some (some (.fault .lineTooLong), restart s)
      else some (none, ⟨{ s with buffered := [] }, .header started length
        (s.buffered.reverse ++ line) (count + s.buffered.length)⟩)) = some (o, r')) :
    Follows more ⟨s, .header started length line count⟩ o r' ∧
      (o = none → work r' < work ⟨s, .header started length line count⟩) := by
  have hlf := splitLine_none hsplit
  have hleft : s.left ++ more = s.buffered ++ (s.chunks.flatten ++ more) := List.append_assoc ..
  split at h
  · next hlong =>
    cases h
    have hread : (reading (.header started length line count) _).1 = _ := reading_long
      (fun h => hlf (List.dropLast_subset _ h)) hne hlong (s.chunks.flatten ++ more)
    exact ⟨.gives hs rfl (by rw [hleft]; exact hread) fun h => absurd rfl h, by simp⟩
  · next hshort =>
    cases h
    have hread : reading (.header started length line count) _ = _ :=
      reading_piece hlf (Nat.le_of_not_lt hshort) (s.chunks.flatten ++ more)
    refine ⟨.on hs rfl (by rw [hleft]; exact hread), fun _ => Nat.lt_of_lt_of_le ?_ (work_header s)⟩
    have hlength : 0 < s.buffered.length := List.length_pos_iff.mpr hne
    have hlast : (if count + s.buffered.length = 0 then 1 else 2) ≤ 2 := by
      split <;> omega
    show 2 * s.chunks.flatten.length + (if count + s.buffered.length = 0 then 1 else 2) < _
    rw [Source.left, List.length_append]
    omega

/-- What is taken over has an end of a line in it. -/
theorem follows_lineEnd {s : Source} {piece rest : List UInt8} (hs : s.Full)
    (hsplit : splitLine s.buffered = some (piece, rest))
    (h : (if maxLine < count + piece.length then some (some (.fault .lineTooLong), restart s)
      else
        match lineDone { s with buffered := rest } length (piece.reverse ++ line).reverse with
        | .error f => some (some (.fault f), restart { s with buffered := rest })
        | .ok r => some (none, r)) = some (o, r')) :
    Follows more ⟨s, .header started length line count⟩ o r' ∧
      (o = none → work r' < work ⟨s, .header started length line count⟩) := by
  obtain ⟨init, rfl, hlf, hbuffered⟩ := splitLine_some hsplit
  have hleft : s.left ++ more = init ++ 10 :: (rest ++ s.chunks.flatten ++ more) := by
    rw [Source.left, hbuffered]
    simp only [List.append_assoc, List.cons_append]
  split at h
  · next hlong =>
    cases h
    have hread : (reading (.header started length line count) _).1 = _ := reading_long
      (by rwa [List.dropLast_concat]) (List.concat_ne_nil _ _) hlong (rest ++ s.chunks.flatten ++ more)
    rw [List.append_assoc] at hread
    exact ⟨.gives hs rfl (by rw [hleft]; exact hread) fun h => absurd rfl h, by simp⟩
  · next hshort =>
    rw [List.length_append, List.length_singleton] at hshort
    have hread : reading (.header started length line count) _ = _ := reading_end hlf
      (Nat.lt_of_succ_le (Nat.le_of_not_lt hshort)) (rest ++ s.chunks.flatten ++ more)
    have hs' : Source.Full { s with buffered := rest } := hs
    obtain ⟨hfollows, hwork⟩ := follows_line hs' (s := s) rfl (by rw [hleft]; exact hread) h
    refine ⟨hfollows, fun ho => Nat.lt_of_lt_of_le ?_ (work_header s)⟩
    rw [hwork ho, Source.left, Source.left, hbuffered]
    simp only [List.length_append, List.length_cons]
    omega

theorem work_fill {s : Source} {most : Nat} {p : Progress} :
    work ⟨s.fill most, p⟩ = work ⟨s, p⟩ := by
  unfold work
  rw [Source.fill_left]

theorem step_header {s : Source} (hs : s.Full) (hm : s.ended = true → more = [])
    (h : step ⟨s, .header started length line count⟩ = some (o, r')) :
    Follows more ⟨s, .header started length line count⟩ o r' ∧
      (o = none → work r' < work ⟨s, .header started length line count⟩) := by
  suffices hf : Follows more ⟨s.fill capacity, .header started length line count⟩ o r' ∧
      (o = none → work r' < work ⟨s.fill capacity, .header started length line count⟩) by
    rw [work_fill] at hf
    exact ⟨.of_fill (r := ⟨s, _⟩) hf.1, hf.2⟩
  simp only [step] at h
  have hcapacity : 0 < capacity := by decide
  have hfull := hs.fill capacity
  have hempty := Source.left_of_fill hs hcapacity
  rw [← s.fill_left capacity] at hempty
  rw [← s.fill_ended capacity] at hm
  generalize s.fill capacity = s at h hfull hempty hm ⊢
  split at h
  · next hnil =>
    split at h
    · next he => exact follows_close hfull (hempty hnil) (hm he) h
    · cases h
  · next hne =>
    cases hsplit : splitLine s.buffered with
    | none =>
      rw [hsplit] at h
      exact follows_piece hfull hne hsplit h
    | some p =>
      rw [hsplit] at h
      exact follows_lineEnd hfull hsplit h

/-- **A step of a reader keeps its reading.** -/
theorem step_keeps (hs : r.source.Full) (hm : r.source.ended = true → more = [])
    (h : r.step = some (o, r')) : Follows more r o r' ∧ (o = none → work r' < work r) := by
  obtain ⟨s, p⟩ := r
  cases p with
  | header started length line count => exact step_header hs hm h
  | body missing octets => exact step_body hs hm h

/-! ### Runs of a reader -/

theorem Follows.refl (hs : r.source.Full) : Follows more r none r := .on hs rfl rfl

theorem Follows.trans {r'' : Reader} (h : Follows more r none r') (h' : Follows more r' o r'') :
    Follows more r o r'' := by
  cases h with
  | on _ ended same =>
    cases h' with
    | on full' ended' same' => exact .on full' (ended'.trans ended) (same.trans same')
    | gives full' ended' gave left =>
      rw [← same] at gave left
      exact .gives full' (ended'.trans ended) gave left

/-- **A run of a reader keeps its reading.** -/
theorem run_keeps (fuel : Nat) (hs : r.source.Full) (hm : r.source.ended = true → more = []) :
    Follows more r (run fuel r).1 (run fuel r).2 := by
  induction fuel generalizing r with
  | zero => exact .refl hs
  | succ fuel ih =>
    rw [run]
    split
    · exact .refl hs
    · next hstep => exact (step_keeps hs hm hstep).1
    · next r' hstep =>
      have hfollows := (step_keeps hs hm hstep).1
      have hrest : Follows more r' (run fuel r').1 (run fuel r').2 := by
        cases hfollows with
        | on full ended _ => exact ih full (ended ▸ hm)
      exact hfollows.trans hrest

/-- A reader has to wait only as long as something may arrive. -/
theorem step_ended (he : r.source.ended = true) : r.step ≠ none := by
  unfold step
  split
  · have hended := r.source.fill_ended capacity
    simp only
    split
    · rw [if_pos (hended.trans he)]
      split_ifs
      · exact Option.some_ne_none _
      · exact Option.some_ne_none _
      · split <;> exact Option.some_ne_none _
    · split <;> split_ifs <;> (try split) <;> exact Option.some_ne_none _
  · next missing octets _ =>
    have hended := r.source.fill_ended (max capacity missing)
    split
    · split <;> exact Option.some_ne_none _
    · simp only
      split
      · rw [if_pos (hended.trans he)]
        exact Option.some_ne_none _
      · exact Option.some_ne_none _

theorem work_pos (r : Reader) : 0 < work r := by
  obtain ⟨s, p⟩ := r
  cases p with
  | header started length line count =>
    exact Nat.lt_of_lt_of_le (Nat.succ_pos _) (work_header s)
  | body missing octets => exact Nat.succ_pos _

theorem run_ended {fuel : Nat} (hs : r.source.Full) (he : r.source.ended = true)
    (hf : work r ≤ fuel) : (run fuel r).1 ≠ none := by
  induction fuel generalizing r with
  | zero => exact absurd (work_pos r) (Nat.not_lt.mpr hf)
  | succ fuel ih =>
    rw [run]
    split
    · next hstep => exact absurd hstep (step_ended he)
    · exact Option.some_ne_none _
    · next r' hstep =>
      have hkeeps : Follows [] r none r' ∧ _ := step_keeps hs (fun _ => rfl) hstep
      have hlt := hkeeps.2 rfl
      cases hkeeps.1 with
      | on full ended _ => exact ih full (ended.trans he) (by omega)

/-- **A reader whose stream has ended gives its reading.** -/
theorem next_ended (hs : r.source.Full) (he : r.source.ended = true) :
    ∃ o r', r.next = (some o, r') ∧ Follows [] r (some o) r' := by
  have hwork : work r ≤ 2 * r.source.size + 4 := by
    rw [work, Source.size_eq]
    split
    · split <;> omega
    · omega
  have hkeeps : Follows [] r _ _ := run_keeps (2 * r.source.size + 4) hs fun _ => rfl
  cases hrun : run (2 * r.source.size + 4) r with
  | mk o r' =>
    rw [hrun] at hkeeps
    cases o with
    | none => exact absurd (congrArg Prod.fst hrun) (run_ended hs he hwork)
    | some o => exact ⟨o, r', hrun, hkeeps⟩

/-! ### Arrivals -/

theorem push_full {c : List UInt8} (hs : r.source.Full) : (r.push c).source.Full := by
  unfold push Source.push
  simp only
  split
  · exact hs
  · next hc =>
    intro c' hc'
    rcases List.mem_append.mp hc' with hc' | hc'
    · exact hs c' hc'
    · rw [List.mem_singleton.mp hc']
      exact fun h => hc (List.isEmpty_iff.mpr h)

theorem push_ended (c : List UInt8) : (r.push c).source.ended = r.source.ended := by
  unfold push Source.push
  simp only
  split <;> rfl

theorem push_left (c : List UInt8) : (r.push c).source.left = r.source.left ++ c := by
  unfold push Source.push
  simp only
  split
  · next hc => rw [List.isEmpty_iff.mp hc, List.append_nil]
  · rw [Source.left, List.flatten_append, List.flatten_singleton, ← List.append_assoc]
    rfl

end Reader
end DebugHost.Frame
