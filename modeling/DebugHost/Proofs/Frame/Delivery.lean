import DebugHost.Proofs.Frame.Cuts

/-! # Reading a stream of frames that is cut

The encodings of some messages, one behind the other and cut anywhere, arrive in chunks at a reader that is
asked for messages in between and afterwards. It gives the messages whose frames have arrived as a
whole, in their order, and then the end of the stream if the cut is between two frames and a fault
otherwise, with no further message behind it (`cut_stream_read`). -/

namespace DebugHost.Frame

open DebugHost.Json DebugHost.Text.Utf8

/-! ### Deliveries -/

/-- What happens to a reader while its stream arrives. -/
inductive Delivery where
  /-- A chunk arrives. -/
  | chunk (octets : List UInt8)
  /-- The reader is asked for the next message. -/
  | ask

/-- The octets that arrive. -/
def arrived : List Delivery → List UInt8
  | [] => []
  | .chunk c :: rest => c ++ arrived rest
  | .ask :: rest => arrived rest

/-- What a reader gives while its stream arrives, and the reader afterwards. -/
def Reader.attend : List Delivery → Reader → List Outcome × Reader
  | [], r => ([], r)
  | .chunk c :: rest, r => attend rest (r.push c)
  | .ask :: rest, r =>
    match r.next with
    | (none, r) => attend rest r
    | (some o, r) => ((attend rest r).1.cons o, (attend rest r).2)

/-- The octets of messages. -/
def frames (ms : List Message) : List UInt8 := ms.flatMap encode

/-- What a message gives when its octets have been read. -/
def received (m : Message) : Outcome := decoded (body m)

/-- A message whose body is not too long and can be read. -/
structure Readable (m : Message) : Prop where
  length_le : (body m).length ≤ maxBody
  decodes : ∃ m', decodeBody (body m) = .ok m'

/-- A part of a frame that has been cut. -/
def IsCut (m : Message) (tail : List UInt8) : Prop := tail <+: encode m ∧ tail ≠ encode m

theorem received_eq {m : Message} (h : Readable m) : ∃ m', received m = .message m' := by
  obtain ⟨m', hm'⟩ := h.decodes
  exact ⟨m', by rw [received, decoded, hm']⟩

theorem frames_cons (m : Message) (ms : List Message) : frames (m :: ms) = encode m ++ frames ms :=
  List.flatMap_cons

theorem frames_append (ms ms' : List Message) : frames (ms ++ ms') = frames ms ++ frames ms' :=
  List.flatMap_append

/-- The octets of a message, character by character. They are computed much faster than those of its
text, so that closed runs have them in the place of their frames. -/
def spelled (m : Message) : List UInt8 :=
  lengthLine (octets (chars m.toValue)).length ++ 10 :: 13 :: 10 :: octets (chars m.toValue)

theorem encode_eq_spelled (m : Message) : encode m = spelled m := by
  rw [encode, ofBody, body_eq, header_eq, List.append_assoc]
  rfl

theorem frames_eq_spelled (ms : List Message) : frames ms = ms.flatMap spelled :=
  congrArg ms.flatMap (funext encode_eq_spelled)

theorem reading_frames {m : Message} (h : Readable m) (rest : List UInt8) :
    reading .start (encode m ++ rest) = (received m, rest) :=
  reading_frame h.length_le rest

theorem reading_nothing : reading .start [] = (.ended, []) := reading_header_nil ..

/-- Octets that are read as an outcome, whatever stands behind them, and of which nothing is left. -/
structure Reads (bs : List UInt8) (o : Outcome) : Prop where
  short : o ≠ .fault .lineTooLong
  goesOn : o ≠ .ended
  reads : ∀ rest, reading .start (bs ++ rest) = (o, rest)

theorem reads_frame {m : Message} (h : Readable m) : Reads (encode m) (received m) := by
  obtain ⟨m', hm'⟩ := received_eq h
  exact ⟨by rw [hm']; simp, by rw [hm']; simp, reading_frames h⟩

/-- A beginning of some frames is some whole frames and a part of the next. -/
theorem cut_frames {bs : List UInt8} {ms : List Message} (h : bs <+: frames ms) :
    ∃ k tail, k ≤ ms.length ∧ bs = frames (ms.take k) ++ tail ∧
      (tail = [] ∨ ∃ m, ms[k]? = some m ∧ IsCut m tail) := by
  induction ms generalizing bs with
  | nil => exact ⟨0, [], Nat.le_refl 0, List.prefix_nil.mp h, Or.inl rfl⟩
  | cons m ms ih =>
    rw [frames_cons] at h
    by_cases hm : encode m <+: bs
    · obtain ⟨rest, rfl⟩ := hm
      obtain ⟨k, tail, hk, rfl, htail⟩ := ih ((List.prefix_append_right_inj _).mp h)
      refine ⟨k + 1, tail, Nat.succ_le_succ hk, ?_, htail⟩
      rw [List.take_succ_cons, frames_cons, List.append_assoc]
    · have hbs : bs <+: encode m :=
        (List.prefix_or_prefix_of_prefix h (List.prefix_append ..)).resolve_right hm
      refine ⟨0, bs, Nat.zero_le _, rfl, Or.inr ⟨m, rfl, hbs, ?_⟩⟩
      rintro rfl
      exact hm (List.prefix_refl _)

namespace Reader

/-! ### While the stream arrives -/

/-- A reader whose stream goes on, and that stands where a new one would if `bs` had arrived. -/
structure Stands (r : Reader) (bs : List UInt8) : Prop where
  full : r.source.Full
  goesOn : r.source.ended = false
  reads : ∀ more, reading r.progress (r.source.left ++ more) = reading .start (bs ++ more)

variable {r r' : Reader} {bs : List UInt8} {o : Outcome}

theorem Stands.push (h : r.Stands bs) (c : List UInt8) : (r.push c).Stands (bs ++ c) where
  full := push_full h.full
  goesOn := (push_ended c).trans h.goesOn
  reads more := by
    rw [push_left, List.append_assoc, List.append_assoc]
    exact h.reads (c ++ more)

theorem Stands.follows (h : r.Stands bs) (more : List UInt8) : Follows more r r.next.1 r.next.2 :=
  run_keeps _ h.full fun he => absurd (h.goesOn.symm.trans he) Bool.false_ne_true

theorem Stands.waits (h : r.Stands bs) (hn : r.next = (none, r')) : r'.Stands bs := by
  have hf := h.follows
  rw [hn] at hf
  have hsame : r'.source.Full ∧ r'.source.ended = r.source.ended ∧ ∀ more,
      reading r.progress (r.source.left ++ more) = reading r'.progress (r'.source.left ++ more) := by
    refine ⟨?_, ?_, fun more => ?_⟩
    · cases hf [] with
      | on full _ _ => exact full
    · cases hf [] with
      | on _ ended _ => exact ended
    · cases hf more with
      | on _ _ same => exact same
  exact ⟨hsame.1, hsame.2.1.trans h.goesOn, fun more => (hsame.2.2 more).symm.trans (h.reads more)⟩

/-- What a reader gives while its stream arrives is what comes next, however it goes on. -/
theorem Stands.gives (h : r.Stands bs) (hn : r.next = (some o, r')) :
    ∃ left, r'.Stands left ∧ ∀ more, (reading .start (bs ++ more)).1 = o ∧
      (o ≠ .fault .lineTooLong → (reading .start (bs ++ more)).2 = left ++ more) := by
  have hf := h.follows
  rw [hn] at hf
  refine ⟨r'.source.left, ?_, fun more => ?_⟩
  · cases hf [] with
    | gives full ended _ _ => exact ⟨full, ended.trans h.goesOn, fun _ => rfl⟩
  · cases hf more with
    | gives _ _ gave left =>
      rw [h.reads more] at gave left
      exact ⟨gave, left⟩

/-- Where a stream may go on, it has not ended. -/
theorem Stands.not_ended (h : r.Stands []) (hn : r.next = (some o, r')) : o ≠ .ended := by
  obtain ⟨left, -, hgives⟩ := h.gives hn
  obtain ⟨f, -, hread⟩ : Breaks [13] .start := breaks_firstLine (by decide) (by decide) (by decide)
  rintro rfl
  have hgave := (hgives [13]).1
  rw [List.nil_append, hread] at hgave
  cases hgave

/-- While pieces arrive that have readings of their own, these are given. -/
theorem attend_pieces {α : Type} {octets : α → List UInt8} {gives : α → Outcome} {xs : List α}
    (hxs : ∀ x ∈ xs, Reads (octets x) (gives x)) {ds : List Delivery} {unseen : List UInt8}
    (h : r.Stands bs) (hbs : bs ++ (arrived ds ++ unseen) = xs.flatMap octets) :
    ∃ k left, k ≤ xs.length ∧ (attend ds r).1 = (xs.take k).map gives ∧
      (attend ds r).2.Stands left ∧ bs ++ arrived ds = (xs.take k).flatMap octets ++ left := by
  induction ds generalizing r bs xs with
  | nil => exact ⟨0, bs, Nat.zero_le _, rfl, h, List.append_nil bs⟩
  | cons d ds ih =>
    cases d with
    | chunk c =>
      have hc : (bs ++ c) ++ (arrived ds ++ unseen) = xs.flatMap octets := by
        rw [← hbs, arrived]
        simp only [List.append_assoc]
      obtain ⟨k, left, hk, hgave, hstands, hread⟩ := ih hxs (h.push c) hc
      refine ⟨k, left, hk, hgave, hstands, ?_⟩
      rw [arrived, ← List.append_assoc, hread]
    | ask =>
      cases hn : r.next with
      | mk o r' =>
        cases o with
        | none =>
          rw [attend, hn]
          exact ih hxs (h.waits hn) hbs
        | some o =>
          obtain ⟨left, hstands, hgives⟩ := h.gives hn
          obtain ⟨hgave, hleft⟩ := hgives (arrived ds ++ unseen)
          rw [show bs ++ (arrived ds ++ unseen) = xs.flatMap octets from hbs] at hgave hleft
          cases xs with
          | nil =>
            obtain ⟨rfl, -⟩ := List.append_eq_nil_iff.mp hbs
            exact absurd (hgave.symm.trans (congrArg Prod.fst reading_nothing)) (h.not_ended hn)
          | cons x xs =>
            have hx := hxs x (List.mem_cons_self ..)
            rw [List.flatMap_cons, hx.reads] at hgave hleft
            have ho : o = gives x := hgave.symm
            have hrest : xs.flatMap octets = left ++ (arrived ds ++ unseen) :=
              hleft (by rw [ho]; exact hx.short)
            obtain ⟨k, left', hk, hgave', hstands', hread⟩ :=
              ih (fun y hy => hxs y (List.mem_cons_of_mem _ hy)) hstands hrest.symm
            -- what is left of the octets is what stands behind the piece
            have hpiece : bs = octets x ++ left := by
              have hwhole : bs ++ (arrived ds ++ unseen) = octets x ++ left ++ (arrived ds ++ unseen) := by
                rw [List.append_assoc, ← hrest, ← List.flatMap_cons]
                exact hbs
              exact List.append_cancel_right hwhole
            refine ⟨k + 1, left', Nat.succ_le_succ hk, ?_, ?_, ?_⟩
            · rw [attend, hn]
              show o :: (attend ds r').1 = _
              rw [hgave', ho]
              rfl
            · rw [attend, hn]
              exact hstands'
            · rw [List.take_succ_cons, List.flatMap_cons, hpiece, List.append_assoc, List.append_assoc]
              exact congrArg (octets x ++ ·) hread

/-- While frames arrive, their messages are given. -/
theorem attend_frames {ms : List Message} (hms : ∀ m ∈ ms, Readable m) {ds : List Delivery}
    {unseen : List UInt8} (h : r.Stands bs) (hbs : bs ++ (arrived ds ++ unseen) = frames ms) :
    ∃ k left, k ≤ ms.length ∧ (attend ds r).1 = (ms.take k).map received ∧
      (attend ds r).2.Stands left ∧ bs ++ arrived ds = frames (ms.take k) ++ left :=
  attend_pieces (fun m hm => reads_frame (hms m hm)) h hbs

/-! ### When the stream has ended -/

/-- A reader whose stream has ended, and that reads what a new one would read from `bs`. -/
structure Holds (r : Reader) (bs : List UInt8) : Prop where
  full : r.source.Full
  ended : r.source.ended = true
  reads : reading r.progress r.source.left = reading .start bs

theorem Stands.finish (h : r.Stands bs) : r.finish.Holds bs where
  full := h.full
  ended := rfl
  reads := by
    have hreads := h.reads []
    rw [List.append_nil, List.append_nil] at hreads
    exact hreads

theorem Holds.next (h : r.Holds bs) {rest : List UInt8} (hr : reading .start bs = (o, rest))
    (ho : o ≠ .fault .lineTooLong) : ∃ r', r.next = (some o, r') ∧ r'.Holds rest := by
  obtain ⟨o', r', hn, hf⟩ := next_ended h.full h.ended
  cases hf with
  | gives full ended gave left =>
    rw [List.append_nil, h.reads, hr] at gave left
    subst gave
    refine ⟨_, hn, full, ended.trans h.ended, ?_⟩
    have hleft := left ho
    simp only [List.append_nil] at hleft
    subst hleft
    rfl

/-- What stands behind whole frames gives `last` and nothing of it is left: the end of the stream if
there is nothing, and a fault otherwise. -/
structure Stops (tail : List UInt8) (last : Outcome) : Prop where
  isLast : tail = [] ∧ last = .ended ∨ tail ≠ [] ∧ ∃ f, last = .fault f
  short : last ≠ .fault .lineTooLong
  reads : reading .start tail = (last, [])

theorem stops_cut {tail : List UInt8} (h : tail = [] ∨ ∃ m, Readable m ∧ IsCut m tail) :
    ∃ last, Stops tail last := by
  by_cases hne : tail = []
  · subst hne
    exact ⟨.ended, Or.inl ⟨rfl, rfl⟩, by simp, reading_nothing⟩
  · obtain ⟨m, hm, hcut⟩ := h.resolve_left hne
    obtain ⟨f, hf, hread⟩ := reading_cut (body_ne_nil m) hm.length_le hne hcut.1 hcut.2
    exact ⟨.fault f, Or.inr ⟨hne, f, rfl⟩, fun h => hf (Outcome.fault.inj h), hread⟩

variable {ms : List Message} {tail : List UInt8} {last : Outcome} {calls : Nat}

theorem Holds.message {m : Message} (hm : Readable m) (h : r.Holds (frames (m :: ms) ++ tail)) :
    ∃ m' r', received m = .message m' ∧ r.next = (some (.message m'), r') ∧
      r'.Holds (frames ms ++ tail) := by
  obtain ⟨m', hm'⟩ := received_eq hm
  rw [frames_cons, List.append_assoc] at h
  obtain ⟨r', hn, h'⟩ := h.next (reading_frames hm _) (by rw [hm']; simp)
  exact ⟨m', r', hm', hm' ▸ hn, h'⟩

/-- After whole frames a reader gives what the rest gives. -/
theorem Holds.upToFault (hms : ∀ m ∈ ms, Readable m) (hlast : Stops tail last)
    (h : r.Holds (frames ms ++ tail)) (hc : ms.length < calls) :
    r.upToFault calls = ms.map received ++ [last] := by
  induction ms generalizing r calls with
  | nil =>
    obtain ⟨calls, rfl⟩ := Nat.exists_eq_succ_of_ne_zero (Nat.ne_of_gt hc)
    obtain ⟨r', hn, -⟩ := h.next hlast.reads hlast.short
    rw [Reader.upToFault, hn]
    rcases hlast.isLast with ⟨-, rfl⟩ | ⟨-, f, rfl⟩ <;> rfl
  | cons m ms ih =>
    obtain ⟨calls, rfl⟩ := Nat.exists_eq_succ_of_ne_zero (Nat.ne_zero_of_lt hc)
    obtain ⟨m', r', hm', hn, h'⟩ := h.message (hms m (List.mem_cons_self ..))
    have hrest := ih (fun m hm => hms m (List.mem_cons_of_mem _ hm)) h' (Nat.lt_of_succ_lt_succ hc)
    rw [Reader.upToFault, hn, List.map_cons, hm']
    exact congrArg (Outcome.message m' :: ·) hrest

/-- Whoever goes on asking is given the readings of all pieces, and then what the rest gives. -/
theorem Holds.toEnd_pieces {α : Type} {octets : α → List UInt8} {gives : α → Outcome} {xs : List α}
    (hxs : ∀ x ∈ xs, Reads (octets x) (gives x)) (h : r.Holds (xs.flatMap octets ++ tail)) :
    ∃ r' : Reader, r'.Holds tail ∧
      ∀ calls, r.toEnd (xs.length + calls) = xs.map gives ++ r'.toEnd calls := by
  induction xs generalizing r with
  | nil => exact ⟨r, h, fun calls => by rw [List.length_nil, Nat.zero_add]; rfl⟩
  | cons x xs ih =>
    have hx := hxs x (List.mem_cons_self ..)
    rw [List.flatMap_cons, List.append_assoc] at h
    obtain ⟨r₁, hn, h₁⟩ := h.next (hx.reads _) hx.short
    obtain ⟨r', h', hrest⟩ := ih (fun y hy => hxs y (List.mem_cons_of_mem _ hy)) h₁
    refine ⟨r', h', fun calls => ?_⟩
    have hstep : r.toEnd (xs.length + calls + 1) = gives x :: r₁.toEnd (xs.length + calls) := by
      have hgoes := hx.goesOn
      rw [Reader.toEnd, hn]
      cases hg : gives x with
      | ended => exact absurd hg hgoes
      | message m => rfl
      | fault f => rfl
    rw [List.length_cons, Nat.add_right_comm, hstep, hrest calls]
    rfl

theorem Holds.toEnd_nothing (h : r.Holds []) (calls : Nat) : r.toEnd (calls + 1) = [.ended] := by
  obtain ⟨r', hn, -⟩ := h.next reading_nothing (by simp)
  rw [Reader.toEnd, hn]

/-- Behind the rest nothing is given but the end of the stream. -/
theorem Holds.toEnd (hms : ∀ m ∈ ms, Readable m) (hlast : Stops tail last)
    (h : r.Holds (frames ms ++ tail)) (hc : ms.length < calls) :
    r.toEnd (calls + 1) = ms.map received ++ if tail = [] then [.ended] else [last, .ended] := by
  obtain ⟨r', h', hrest⟩ := Holds.toEnd_pieces (fun m hm => reads_frame (hms m hm)) h
  obtain ⟨more, rfl⟩ := Nat.exists_eq_add_of_lt hc
  have hcalls : ms.length + more + 1 + 1 = ms.length + (more + 1 + 1) := by omega
  rw [hcalls, hrest]
  obtain ⟨r'', hn, h''⟩ := h'.next hlast.reads hlast.short
  rcases hlast.isLast with ⟨htail, rfl⟩ | ⟨htail, f, rfl⟩
  · rw [if_pos htail, Reader.toEnd, hn]
  · rw [if_neg htail, Reader.toEnd, hn]
    simp only [h''.toEnd_nothing more]

/-- A stream that has arrived before the reader is asked. -/
theorem attend_chunks (chunks : List (List UInt8)) :
    (attend (chunks.map .chunk) {}).2.finish = { source := .ofChunks chunks } := by
  have h : ∀ s : Source, (attend (chunks.map .chunk) { source := s }).2 =
      { source := { s with chunks := s.chunks ++ chunks.filter fun c => !c.isEmpty } } := by
    induction chunks with
    | nil => exact fun s => by rw [List.filter_nil, List.append_nil]; rfl
    | cons c chunks ih =>
      intro s
      show (attend (chunks.map .chunk) { source := s.push c }).2 = _
      rw [ih, Source.push]
      cases hc : c.isEmpty
      · simp [hc]
      · simp [hc]
  rw [h]
  rfl

theorem stands_new : Stands {} [] where
  full := List.forall_mem_nil _
  goesOn := rfl
  reads _ := rfl

end Reader

/-- **A cut stream gives the messages that are in it as a whole, and no other.** The encodings of messages
that can be read are cut anywhere and arrive in any chunks, at a reader that may be asked in between.
All in all it gives the messages whose frames have arrived as a whole, as decoding their bodies gives them,
and then the end of the stream if nothing is left behind the last of them, and a fault otherwise;
whoever goes on asking after the fault is given the end of the stream and no message. -/
theorem cut_stream_read (ms : List Message)
    (hms : ∀ m ∈ ms, (body m).length ≤ maxBody ∧ ∃ m', decodeBody (body m) = .ok m')
    (ds : List Delivery) (hds : arrived ds <+: ms.flatMap encode) :
    ∃ k tail last, k ≤ ms.length ∧ arrived ds = (ms.take k).flatMap encode ++ tail ∧
      (tail = [] ∧ last = .ended ∨
        (∃ m, ms[k]? = some m ∧ tail <+: encode m ∧ tail ≠ encode m) ∧ tail ≠ [] ∧
          ∃ f, last = .fault f) ∧
      ∀ calls, k < calls →
        (Reader.attend ds {}).1 ++ (Reader.attend ds {}).2.finish.upToFault calls =
          (ms.take k).map (fun m => decoded (body m)) ++ [last] ∧
        (Reader.attend ds {}).1 ++ (Reader.attend ds {}).2.finish.toEnd (calls + 1) =
          (ms.take k).map (fun m => decoded (body m)) ++ if tail = [] then [.ended] else [last, .ended] := by
  have hms : ∀ m ∈ ms, Readable m := fun m hm => ⟨(hms m hm).1, (hms m hm).2⟩
  obtain ⟨unseen, hunseen⟩ := hds
  obtain ⟨j, left, hj, hgave, hstands, hread⟩ :=
    Reader.attend_frames hms Reader.stands_new hunseen
  rw [List.nil_append] at hread
  -- what is left of the octets begins what stands behind the messages that were given
  have hleft : left <+: frames (ms.drop j) := by
    have hwhole : frames (ms.take j) ++ (left ++ unseen) = frames (ms.take j) ++ frames (ms.drop j) := by
      rw [← List.append_assoc, ← hread, ← frames_append, List.take_append_drop]
      exact hunseen
    exact ⟨unseen, List.append_cancel_left hwhole⟩
  obtain ⟨i, tail, hi, rfl, htail⟩ := cut_frames hleft
  have hrest : ∀ m ∈ (ms.drop j).take i, Readable m := fun m hm =>
    hms m (List.mem_of_mem_drop (List.mem_of_mem_take hm))
  rw [List.length_drop] at hi
  have hlength : ((ms.drop j).take i).length ≤ j + i :=
    Nat.le_trans (List.length_take_le ..) (Nat.le_add_left i j)
  obtain ⟨last, hlast⟩ : ∃ last, Reader.Stops tail last := by
    refine Reader.stops_cut (htail.imp_right ?_)
    rintro ⟨m, hm, hcut⟩
    exact ⟨m, hms m (List.mem_of_mem_drop (List.mem_of_getElem? hm)), hcut⟩
  have hwhich : tail = [] ∧ last = .ended ∨
      (∃ m, ms[j + i]? = some m ∧ tail <+: encode m ∧ tail ≠ encode m) ∧ tail ≠ [] ∧
        ∃ f, last = .fault f := by
    refine hlast.isLast.imp_right fun ⟨hne, hfault⟩ => ⟨?_, hne, hfault⟩
    obtain ⟨m, hm, hcut⟩ := htail.resolve_left hne
    exact ⟨m, by rw [← hm, List.getElem?_drop], hcut⟩
  refine ⟨j + i, tail, last, by omega, ?_, hwhich, fun calls hc => ?_⟩
  · rw [hread, ← List.append_assoc, ← frames_append, ← List.take_add]
    rfl
  · have hmap : (ms.take (j + i)).map received =
        (ms.take j).map received ++ ((ms.drop j).take i).map received := by
      rw [List.take_add, List.map_append]
    have hup := hstands.finish.upToFault hrest hlast (Nat.lt_of_le_of_lt hlength hc)
    have hend := hstands.finish.toEnd hrest hlast (Nat.lt_of_le_of_lt hlength hc)
    rw [hgave, hup, hend, ← List.append_assoc, ← List.append_assoc, ← hmap]
    exact ⟨rfl, rfl⟩

/-- An event without a body. -/
def initialized : Message := .event ⟨1, "initialized", none⟩

/-- The frame of an event and the first line of another message up to its digits, in chunks of which one
ends within a word and one before the last line feed of a header. -/
def cutDelivery : List Delivery :=
  let bs := encode initialized ++ (encode nullResponse).take 19
  [.chunk (bs.take 7), .ask, .chunk ((bs.drop 7).take 14), .ask, .chunk (bs.drop 21), .ask]

theorem cut_stream_read_firstLine :
    ∃ f, (Reader.attend cutDelivery {}).1 ++ (Reader.attend cutDelivery {}).2.finish.toEnd 3 =
      [.message initialized, .fault f, .ended] := by
  have hfirst : decodeBody (body initialized) = .ok initialized :=
    decodeBody_body (m := initialized) ⟨by decide, rfl, rfl, by decide⟩
  have hsecond := decodeBody_body (m := nullResponse) ⟨by decide, rfl, rfl, by decide⟩
  have hms : ∀ m ∈ [initialized, nullResponse],
      (body m).length ≤ maxBody ∧ ∃ m', decodeBody (body m) = .ok m' := by
    simp only [List.forall_mem_cons]
    exact ⟨⟨by decide +kernel, _, hfirst⟩, ⟨by decide +kernel, _, hsecond⟩, List.forall_mem_nil _⟩
  obtain ⟨k, tail, last, hk, hread, hlast, hgave⟩ :=
    cut_stream_read [initialized, nullResponse] hms cutDelivery (by decide +kernel)
  have hlength := congrArg List.length hread
  have hwhole : (arrived cutDelivery).length = (encode initialized).length + 19 := by decide +kernel
  have hnext : 19 < (encode nullResponse).length := by decide +kernel
  rw [hwhole, List.length_append] at hlength
  match k, hk with
  | 0, _ =>
    have htail : tail.length = (encode initialized).length + 19 := by
      rw [hlength]
      exact (Nat.zero_add _).symm
    rcases hlast with ⟨rfl, -⟩ | ⟨⟨m, hm, hprefix, -⟩, -⟩
    · cases htail
    · cases hm
      have hle := hprefix.length_le
      omega
  | 1, _ =>
    have hone : ([initialized, nullResponse].take 1).flatMap encode = encode initialized :=
      List.flatMap_singleton ..
    rw [hone] at hlength
    have hne : tail ≠ [] := by
      rintro rfl
      rw [List.length_nil] at hlength
      omega
    obtain ⟨-, -, f, rfl⟩ := hlast.resolve_left fun h => hne h.1
    refine ⟨f, (hgave 2 (by decide)).2.trans ?_⟩
    rw [if_neg hne]
    show [decoded (body initialized), .fault f, .ended] = _
    rw [decoded, hfirst]
  | 2, _ =>
    have htwo : ([initialized, nullResponse].take 2).flatMap encode =
        encode initialized ++ encode nullResponse := by
      simp only [List.take, List.flatMap_cons, List.flatMap_nil, List.append_nil]
    rw [htwo, List.length_append] at hlength
    omega

end DebugHost.Frame
