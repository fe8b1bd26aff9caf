import DebugHost.Message.Reader
import DebugHost.Proofs.Json.Values

/-! # Reading the messages that are written

A message that may be sent (`Message.Sendable`) is read back from its text, but for a body that is
`null`, which is none afterwards (`read_written`). A message that was read may be sent if no number in
its free-form part is real (`Received.sendable`). -/

namespace DebugHost

open DebugHost.Json DebugHost.Text DebugHost.Text.Utf8

namespace Message

/-! ### Messages that may be sent -/

/-- The free-form part of a message; `null` stands for none. -/
def free : Message → Value
  | .request r => r.arguments
  | .response r => r.body.getD .null
  | .event e => e.body.getD .null

/-- The numbers of messages in a message. -/
def numbers : Message → List Int
  | .request r => [r.seq]
  | .response r => [r.seq, r.requestSeq]
  | .event e => [e.seq]

/-- A message that may be sent: its numbers are of 64 bits, its free-form part is in canonical form with
whole numbers only, and it is not nested too deep to be read. -/
structure Sendable (m : Message) : Prop where
  numbers : ∀ n ∈ m.numbers, Integer.Range.int64.holds n = true
  canonical : m.free.canonical = m.free
  whole : m.free.isWhole = true
  depth : m.toValue.depth ≤ maxDepth

/-- A body that is not `null`. -/
def presentBody : Option Value → Option Value
  | some .null => none
  | b => b

/-- The message without a body that is `null`. -/
def withoutNull : Message → Message
  | .request r => .request r
  | .response r => .response { r with body := presentBody r.body }
  | .event e => .event { e with body := presentBody e.body }

theorem depth_toValue (m : Message) : m.toValue.depth = m.free.depth + 1 := by
  unfold toValue
  rcases m with r | r | e
  · obtain ⟨s, c, v⟩ := r
    cases v <;> simp [members, Request.members, free, Value.depth, Value.depthOfMembers]
  · obtain ⟨s, q, ok, c, t, b⟩ := r
    cases t <;> cases b <;>
      simp [members, Response.members, optionalMember, free, Value.depth, Value.depthOfMembers]
  · obtain ⟨s, c, b⟩ := e
    cases b <;> simp [members, Event.members, optionalMember, free, Value.depth, Value.depthOfMembers]

theorem fits_int64 {n : Int} (h : Integer.Range.int64.holds n = true) : Fits n := by
  have h := of_decide_eq_true h
  exact ⟨h.1, Int.le_trans h.2 (by decide)⟩

/-- A part of a message is one of its numbers, its free-form part, or another scalar. -/
theorem mem_members {m : Message} {p : String × Value} (h : p ∈ m.members) :
    p.1 ≠ tag ∧ ((∃ n ∈ m.numbers, p.2 = .int n) ∨ p.2 = m.free ∨ (∃ s, p.2 = .str s) ∨
      ∃ b, p.2 = .bool b) := by
  rcases m with r | r | e
  · obtain ⟨s, c, v⟩ := r
    cases v <;> simp [members, Request.members, free, numbers, tag] at h ⊢ <;>
      rcases h with rfl | rfl | rfl <;> simp
  · obtain ⟨s, q, ok, c, t, b⟩ := r
    cases t <;> cases b <;>
      simp [members, Response.members, optionalMember, free, numbers, tag] at h ⊢ <;>
      rcases h with rfl | rfl | rfl | rfl | rfl | rfl <;> simp
  · obtain ⟨s, c, b⟩ := e
    cases b <;> simp [members, Event.members, optionalMember, free, numbers, tag] at h ⊢ <;>
      rcases h with rfl | rfl | rfl <;> simp

/-- The parts of a message that may be sent are read back from what is written for them. -/
theorem Sendable.reads {m : Message} (h : m.Sendable) {p : String × Value} (hp : p ∈ m.members) :
    Reads (readValue partDepth) p.2 := by
  have hfree : m.free.depth ≤ partDepth := by
    have hdepth := h.depth
    rw [depth_toValue] at hdepth
    exact Nat.le_of_succ_le_succ hdepth
  rcases (mem_members hp).2 with ⟨n, hn, hv⟩ | hv | ⟨s, hv⟩ | ⟨b, hv⟩ <;> rw [hv]
  · exact readValue_chars (Nat.zero_le _) (decide_eq_true (fits_int64 (h.numbers n hn)))
  · exact readValue_chars hfree h.whole
  · exact readValue_chars (Nat.zero_le _) rfl
  · exact readValue_chars (Nat.zero_le _) rfl

/-! ### The kind -/

theorem readKind_name (k : Kind) (rest : List UInt8) :
    readKind (octets (quoted k.name) ++ rest) = .ok (k, rest) := by
  obtain ⟨bs, hbs, hread⟩ := readString_quoted k.name rest
  have hscalar : readScalar 34 (bs ++ rest) = .ok (.str k.name, rest) := by
    show (readString (bs ++ rest)).map _ = _
    rw [hread]
    rfl
  have hkind : kindOfValue (.str k.name) = .ok k := by
    cases k <;> rfl
  rw [hbs, List.cons_append, readKind, skipBlanks_cons (by decide)]
  simp only
  rw [if_neg (by decide), if_neg (by decide), hscalar]
  simp only [hkind]

/-! ### The parts -/

/-- The parts of a message behind its kind are read up to its end. -/
theorem readMessageMembers_memberChars {ms : List (String × Value)}
    (hr : ∀ p ∈ ms, p.1 ≠ tag ∧ Reads (readValue partDepth) p.2) {fuel : Nat} (hf : ms.length < fuel)
    (k : Kind) (acc : List (String × Value)) (rest : List UInt8) :
    readMessageMembers fuel false (some k) acc (octets (memberChars ms) ++ rest) =
      .ok ((k, acc.reverse ++ ms), rest) := by
  induction ms generalizing fuel acc with
  | nil =>
    obtain ⟨fuel, rfl⟩ := Nat.exists_eq_succ_of_ne_zero (Nat.ne_of_gt hf)
    rw [List.append_nil]
    rfl
  | cons p ms ih =>
    obtain ⟨fuel, rfl⟩ := Nat.exists_eq_succ_of_ne_zero (Nat.ne_zero_of_lt hf)
    obtain ⟨n, v⟩ := p
    obtain ⟨htag, hread⟩ := hr (n, v) (List.mem_cons_self ..)
    have hitem := hread _ (numberEnds_memberChars ms rest)
    rw [memberChars, readMessageMembers, nextName_quoted]
    simp only
    rw [if_neg fun h => htag h.1, readColon_colon, octets_append, List.append_assoc]
    simp only
    rw [if_neg htag, hitem]
    simp only
    rw [ih (fun p hp => hr p (List.mem_cons_of_mem _ hp)) (Nat.lt_of_succ_lt_succ hf),
      List.reverse_cons, List.append_assoc]
    rfl

/-- An object that starts with the kind is read on from the word for the kind. -/
theorem readParts_tag (w : String) (ms : List (String × Value)) :
    ∃ fuel, ms.length < fuel ∧ readParts (octets (chars (.obj ((tag, .str w) :: ms)))) =
      ((readKind (octets (quoted w) ++ octets (memberChars ms))).bind
        fun (k, rest) => readMessageMembers fuel false (some k) [] rest).map
        fun ((k, ms), r) => ((k, .members ms), r) := by
  have hlength := length_memberChars ms
  have hname := nextName_first tag (':' :: (quoted w ++ memberChars ms)) []
  simp only [List.append_nil] at hname
  have hcolon := readColon_colon (quoted w ++ memberChars ms) []
  simp only [List.append_nil] at hcolon
  refine ⟨(octets (quoted tag ++ ':' :: (quoted w ++ memberChars ms))).length, ?_, ?_⟩
  · simp only [octets_append, octets_cons, List.length_append]
    omega
  · rw [chars, octets_latin (by decide), readParts, skipBlanks_cons (by decide)]
    simp only
    rw [if_pos (by decide), chars, readMessageMembers, hname]
    simp only
    rw [if_neg fun h => Bool.false_ne_true h.2, hcolon]
    simp only
    rw [if_pos trivial, octets_append]
    cases readKind (octets (quoted w) ++ octets (memberChars ms)) <;> rfl

/-- The kind and the parts of a message are read from an object that starts with the kind. -/
theorem readParts_members (k : Kind) {ms : List (String × Value)}
    (hr : ∀ p ∈ ms, p.1 ≠ tag ∧ Reads (readValue partDepth) p.2) :
    readParts (octets (chars (.obj ((tag, .str k.name) :: ms)))) = .ok ((k, .members ms), []) := by
  obtain ⟨fuel, hfuel, hread⟩ := readParts_tag k.name ms
  have hparts := readMessageMembers_memberChars hr hfuel k [] []
  simp only [List.append_nil] at hparts
  rw [hread, readKind_name]
  exact congrArg (Except.map _) hparts

/-- The kind and the parts of a message are read from what is written for them. -/
theorem readParts_chars {m : Message} (h : m.Sendable) :
    readParts (octets (chars m.toValue)) = .ok ((m.kind, .members m.members), []) :=
  readParts_members m.kind fun _ hp => ⟨(mem_members hp).1, h.reads hp⟩

/-! ### Messages from their parts -/

theorem int64_ok {n : Int} (h : Integer.Range.int64.holds n = true) :
    Field.int64 (.int n) = .ok n := by
  rw [Field.int64, if_pos h]

theorem any_ok {v : Value} (h : v.canonical = v) : Field.any v = .ok v :=
  congrArg Except.ok h

theorem nullable_any {v : Value} (h : v.canonical = v) :
    Field.nullable Field.any v = .ok (presentBody (some v)) := by
  cases v <;> first | rfl | exact congrArg (Except.map some) (any_ok h)

instance exact_request : Request.record.Exact := by
  unfold Request.record
  infer_instance

instance exact_response : Response.record.Exact := by
  unfold Response.record
  infer_instance

instance exact_event : Event.record.Exact := by
  unfold Event.record
  infer_instance

theorem request_ofMembers {r : Request} (hn : Integer.Range.int64.holds r.seq = true)
    (hc : r.arguments.canonical = r.arguments) :
    Request.record.ofMembers false r.members = .ok r := by
  obtain ⟨s, c, v⟩ := r
  have hseq := int64_ok hn
  have hany := any_ok hc
  refine Record.ofMembers_eq ?_ ?_
  · cases v <;> simp [Request.members]
  · simp only [Request.record, Record.build_seq, Record.build_map, Record.build_required]
    refine ⟨_, ⟨_, ⟨s, ⟨_, rfl, hseq⟩, rfl⟩, c, ⟨_, rfl, rfl⟩, rfl⟩, v, ?_, rfl⟩
    rw [Record.build_defaulted]
    cases v with
    | null => exact Or.inl ⟨rfl, rfl⟩
    | _ => exact Or.inr ⟨_, rfl, hany⟩

theorem event_ofMembers {e : Event} (hn : Integer.Range.int64.holds e.seq = true)
    (hc : ∀ v, e.body = some v → v.canonical = v) :
    Event.record.ofMembers false e.members = .ok { e with body := presentBody e.body } := by
  obtain ⟨s, c, b⟩ := e
  have hseq := int64_ok hn
  have hbody := fun v hv => nullable_any (hc v hv)
  refine Record.ofMembers_eq ?_ ?_
  · cases b <;> simp [Event.members, optionalMember]
  · simp only [Event.record, Record.build_seq, Record.build_map, Record.build_required]
    refine ⟨_, ⟨_, ⟨s, ⟨_, rfl, hseq⟩, rfl⟩, c, ⟨_, rfl, rfl⟩, rfl⟩, presentBody b, ?_, rfl⟩
    rw [Record.build_defaulted]
    cases b with
    | none => exact Or.inl ⟨rfl, rfl⟩
    | some v => exact Or.inr ⟨v, rfl, hbody v rfl⟩

theorem response_ofMembers {r : Response} (hn : Integer.Range.int64.holds r.seq = true)
    (hq : Integer.Range.int64.holds r.requestSeq = true)
    (hc : ∀ v, r.body = some v → v.canonical = v) :
    Response.record.ofMembers false r.members = .ok { r with body := presentBody r.body } := by
  obtain ⟨s, q, k, c, t, b⟩ := r
  have hseq := int64_ok hn
  have hrequest := int64_ok hq
  have hbody := fun v hv => nullable_any (hc v hv)
  refine Record.ofMembers_eq ?_ ?_
  · cases t <;> cases b <;> simp [Response.members, optionalMember]
  · simp only [Response.record, Record.build_seq, Record.build_map, Record.build_required]
    refine ⟨_, ⟨_, ⟨_, ⟨_, ⟨_, ⟨s, ⟨_, rfl, hseq⟩, rfl⟩, q, ⟨_, rfl, hrequest⟩, rfl⟩, k, ⟨_, rfl, rfl⟩,
      rfl⟩, c, ⟨_, rfl, rfl⟩, rfl⟩, t, ?_, rfl⟩, presentBody b, ?_, rfl⟩
    · rw [Record.build_defaulted]
      cases t with
      | none => exact Or.inl ⟨by cases b <;> rfl, rfl⟩
      | some t => exact Or.inr ⟨.str t, rfl, rfl⟩
    · rw [Record.build_defaulted]
      cases b with
      | none => exact Or.inl ⟨by cases t <;> rfl, rfl⟩
      | some v => exact Or.inr ⟨v, by cases t <;> rfl, hbody v rfl⟩

theorem ofParts_members {m : Message} (h : m.Sendable) :
    ofParts m.kind (.members m.members) = .ok m.withoutNull := by
  have hnumbers := h.numbers
  have hcanonical := h.canonical
  rcases m with r | r | e
  · have hr := request_ofMembers (hnumbers _ (List.mem_cons_self ..)) hcanonical
    exact congrArg (Except.map Message.request) hr
  · have hr := response_ofMembers (hnumbers _ (List.mem_cons_self ..))
      (hnumbers _ (List.mem_cons_of_mem _ (List.mem_cons_self ..))) fun v hv => by
        simpa only [free, hv, Option.getD_some] using hcanonical
    exact congrArg (Except.map Message.response) hr
  · have he := event_ofMembers (hnumbers _ (List.mem_cons_self ..)) fun v hv => by
      simpa only [free, hv, Option.getD_some] using hcanonical
    exact congrArg (Except.map Message.event) he

/-- **A message that may be sent is read back from what is written for it.** -/
theorem read_written {m : Message} (h : m.Sendable) :
    read (octets (chars m.toValue)) = .ok m.withoutNull := by
  rw [read, readParts_chars h]
  simp only [ofParts_members h]
  rfl

/-! ### Messages that were read -/

/-- The values among the parts of a message. -/
def Parts.values : Parts → List Value
  | .members ms => ms.map (·.2)
  | .items vs => vs

theorem readMessageMembers_readable {fuel : Nat} {first : Bool} {kind : Option Kind} {k : Kind}
    {acc ms : List (String × Value)} {bs rest : List UInt8} (hacc : ∀ p ∈ acc, p.2.Readable partDepth)
    (h : readMessageMembers fuel first kind acc bs = .ok ((k, ms), rest)) :
    ∀ p ∈ ms, p.2.Readable partDepth := by
  induction fuel generalizing first kind acc bs with
  | zero => cases h
  | succ fuel ih =>
    rw [readMessageMembers] at h
    split at h
    · cases h
    · split at h
      · cases h
      · cases h
        exact fun p hp => hacc p (List.mem_reverse.mp hp)
    · split at h
      · cases h
      · split at h
        · cases h
        · split at h
          · split at h
            · cases h
            · exact ih hacc h
          · split at h
            · cases h
            · next v rest' hv =>
              refine ih (fun p hp => ?_) h
              rcases List.mem_cons.mp hp with rfl | hp
              · exact readable_readValue partDepth _ _ _ hv
              · exact hacc p hp

theorem readMessageItems_readable {k : Kind} {vs : List Value} {bs rest : List UInt8}
    (h : readMessageItems bs = .ok ((k, vs), rest)) : ∀ v ∈ vs, v.Readable partDepth := by
  unfold readMessageItems at h
  split at h
  · cases h
  · cases h
  · split at h
    · cases h
    · split at h
      · cases h
      · next hvs =>
        cases h
        exact readItems_yields (readable_readValue partDepth) (List.forall_mem_nil _) hvs

theorem readParts_readable {k : Kind} {p : Parts} {bs rest : List UInt8}
    (h : readParts bs = .ok ((k, p), rest)) : ∀ v ∈ p.values, v.Readable partDepth := by
  unfold readParts at h
  split at h
  · cases h
  · split at h
    · obtain ⟨⟨⟨_, ms⟩, _⟩, hms, ⟨⟩⟩ := map_eq_ok.mp h
      intro v hv
      obtain ⟨q, hq, rfl⟩ := List.mem_map.mp hv
      exact readMessageMembers_readable (List.forall_mem_nil _) hms q hq
    · split at h
      · obtain ⟨⟨⟨_, vs⟩, _⟩, hvs, ⟨⟩⟩ := map_eq_ok.mp h
        exact readMessageItems_readable hvs
      · split at h <;> cases h

/-- A structure is built from values among the parts of the message. -/
theorem Parts.read_ok {α : Type} {name : String} {r : Record Value α} {p : Parts} {a : α}
    (h : p.read name r = .ok a) :
    ∃ get, r.build get = .ok a ∧ ∀ n v, get n = some v → v ∈ p.values := by
  cases p with
  | members ms =>
    exact ⟨_, Record.ofMembers_ok h, fun n v hv =>
      List.mem_map.mpr ⟨(n, v), Record.mem_of_find hv, rfl⟩⟩
  | items vs =>
    rw [Parts.read] at h
    exact ⟨_, Record.ofItems_ok h, fun n v hv => (List.of_mem_zip (Record.mem_of_find hv)).2⟩

theorem holds_int64 {v : Value} {n : Int} (h : Field.int64 v = .ok n) :
    Integer.Range.int64.holds n = true := by
  unfold Field.int64 at h
  split at h
  · split at h
    · cases h
      assumption
    · cases h
  · cases h

/-- A body that is read is none, or what a value other than `null` is in canonical form. -/
theorem nullable_any_ok {v : Value} {b : Option Value} (h : Field.nullable Field.any v = .ok b) :
    b = none ∨ b = some v.canonical ∧ v.canonical ≠ .null := by
  unfold Field.nullable at h
  split at h
  · cases h
    exact Or.inl rfl
  · next hv =>
    refine Or.inr ⟨(Except.ok.inj h).symm, fun hc => hv ?_⟩
    cases v <;> first | rfl | cases hc

/-- A free-form part that was read: in canonical form, and within the depth of its reader. -/
structure Kept (v : Value) : Prop where
  canonical : v.canonical = v
  readable : v.Readable partDepth

theorem kept_null : Kept .null := ⟨rfl, Value.readable_scalar rfl rfl⟩

theorem kept_canonical {v : Value} (h : v.Readable partDepth) : Kept v.canonical :=
  ⟨Value.canonical_canonical v, h.canonical⟩

theorem presentBody_eq {b : Option Value} (h : b ≠ some .null) : presentBody b = b := by
  rcases b with _ | v
  · rfl
  · cases v <;> first | rfl | exact absurd rfl h

/-- What a message that was read is made of. -/
structure Received (m : Message) : Prop where
  numbers : ∀ n ∈ m.numbers, Integer.Range.int64.holds n = true
  kept : Kept m.free
  present : m.withoutNull = m

/-- A body that is read is kept. -/
theorem body_received {get : String → Option Value} {b : Option Value} {n : String}
    (hget : ∀ n v, get n = some v → v.Readable partDepth)
    (h : (Record.defaulted n none (Field.nullable Field.any)).build get = .ok b) :
    Kept (b.getD .null) ∧ presentBody b = b := by
  rcases Record.build_defaulted.mp h with ⟨-, rfl⟩ | ⟨v, hv, hread⟩
  · exact ⟨kept_null, rfl⟩
  · rcases nullable_any_ok hread with rfl | ⟨rfl, hne⟩
    · exact ⟨kept_null, rfl⟩
    · exact ⟨kept_canonical (hget n v hv), presentBody_eq fun h => hne (Option.some.inj h)⟩

theorem received_ofParts {k : Kind} {p : Parts} {m : Message}
    (hp : ∀ v ∈ p.values, v.Readable partDepth) (h : ofParts k p = .ok m) : m.Received := by
  cases k with
  | request =>
    obtain ⟨r, hr, rfl⟩ := map_eq_ok.mp h
    obtain ⟨get, hbuild, hget⟩ := Parts.read_ok hr
    simp only [Request.record, Record.build_seq, Record.build_map, Record.build_required] at hbuild
    obtain ⟨_, ⟨_, ⟨s, ⟨_, -, hseq⟩, rfl⟩, c, -, rfl⟩, v, hv, rfl⟩ := hbuild
    have hkept : Kept v := by
      rcases Record.build_defaulted.mp hv with ⟨-, rfl⟩ | ⟨w, hw, hread⟩
      · exact kept_null
      · exact Except.ok.inj hread ▸ kept_canonical (hp w (hget _ w hw))
    exact ⟨by simpa [numbers] using holds_int64 hseq, hkept, rfl⟩
  | response =>
    obtain ⟨r, hr, rfl⟩ := map_eq_ok.mp h
    obtain ⟨get, hbuild, hget⟩ := Parts.read_ok hr
    simp only [Response.record, Record.build_seq, Record.build_map, Record.build_required] at hbuild
    obtain ⟨_, ⟨_, ⟨_, ⟨_, ⟨_, ⟨s, ⟨_, -, hseq⟩, rfl⟩, q, ⟨_, -, hrequest⟩, rfl⟩, k, -, rfl⟩, c, -, rfl⟩,
      t, -, rfl⟩, b, hb, rfl⟩ := hbuild
    obtain ⟨hkept, hpresent⟩ := body_received (fun n v hv => hp v (hget n v hv)) hb
    exact ⟨by simpa [numbers] using ⟨holds_int64 hseq, holds_int64 hrequest⟩, hkept,
      congrArg (fun b => response ⟨s, q, k, c, t, b⟩) hpresent⟩
  | event =>
    obtain ⟨e, he, rfl⟩ := map_eq_ok.mp h
    obtain ⟨get, hbuild, hget⟩ := Parts.read_ok he
    simp only [Event.record, Record.build_seq, Record.build_map, Record.build_required] at hbuild
    obtain ⟨_, ⟨_, ⟨s, ⟨_, -, hseq⟩, rfl⟩, c, -, rfl⟩, b, hb, rfl⟩ := hbuild
    obtain ⟨hkept, hpresent⟩ := body_received (fun n v hv => hp v (hget n v hv)) hb
    exact ⟨by simpa [numbers] using holds_int64 hseq, hkept,
      congrArg (fun b => event ⟨s, c, b⟩) hpresent⟩

theorem received_read {bs : List UInt8} {m : Message} (h : read bs = .ok m) : m.Received := by
  unfold read at h
  split at h
  · cases h
  · next hparts =>
    split at h
    · cases h
    · next hm =>
      split at h
      · cases h
      · cases h
        exact received_ofParts (readParts_readable hparts) hm

/-- Whether a scalar is no real number. -/
def isNotReal : Value → Bool
  | .real _ => false
  | _ => true

/-- **A message that was read may be sent**, if its free-form part has no real number. -/
theorem Received.sendable {m : Message} (h : m.Received) (hr : m.free.every isNotReal = true) :
    m.Sendable where
  numbers := h.numbers
  canonical := h.kept.canonical
  whole := by
    refine Value.every_and (fun v hf hr => ?_) h.kept.readable.fits hr
    cases v with
    | real x => exact hr
    | int n => exact hf
    | _ => rfl
  depth := by
    rw [depth_toValue]
    exact Nat.succ_le_succ h.kept.readable.depth_le

end Message
end DebugHost
