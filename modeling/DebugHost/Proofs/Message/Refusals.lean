import DebugHost.Frame
import DebugHost.Proofs.Json.Literals
import DebugHost.Proofs.Json.Swaps
import DebugHost.Proofs.Message.Reading
import DebugHost.Session.State

/-! # What refusals show of the texts that were sent

Messages and bodies that differ in one text are refused alike (`blind_ofParts`, and one lemma for each
kind of body). The refusals say the same, but for what redaction leaves of the text: of a field, what it
leaves of the quoted text (`redacted_fields`), of the word for the kind, what it leaves of the word
between grave accents (`redacted_tags`). So nothing is shown of a text without double quotes and grave
accents, while a double quote in it lets a part of it through (`refusals_show`). -/

namespace DebugHost

open DebugHost.Json DebugHost.Redaction DebugHost.Text DebugHost.Text.Utf8

variable {s t : String}

/-! ### Messages -/

namespace Message

/-- Parts of messages that differ in one text: `s` in the first and `t` in the second. -/
inductive Parts.Swaps (s t : String) : Parts → Parts → Prop where
  | members (ms ns : List (String × Value)) (n : String) {v v' : Value} (h : Json.Swaps s t v v') :
    Parts.Swaps s t (.members (ms ++ (n, v) :: ns)) (.members (ms ++ (n, v') :: ns))
  | items (vs ws : List Value) {v v' : Value} (h : Json.Swaps s t v v') :
    Parts.Swaps s t (.items (vs ++ v :: ws)) (.items (vs ++ v' :: ws))

theorem blind_request : Request.record.Blind :=
  (((Record.blind_required _ blind_int64).map _).seq (Record.blind_required _ blind_string)).seq
    (Record.blind_defaulted _ _ blind_any)

theorem blind_response : Response.record.Blind :=
  ((((((Record.blind_required _ blind_int64).map _).seq (Record.blind_required _ blind_int64)).seq
    (Record.blind_required _ blind_bool)).seq (Record.blind_required _ blind_string)).seq
    (Record.blind_defaulted _ _ blind_string.nullable)).seq
    (Record.blind_defaulted _ _ blind_any.nullable)

theorem blind_event : Event.record.Blind :=
  (((Record.blind_required _ blind_int64).map _).seq (Record.blind_required _ blind_string)).seq
    (Record.blind_defaulted _ _ blind_any.nullable)

theorem Parts.Swaps.read {α : Type} {p p' : Parts} (h : p.Swaps s t p') (name : String)
    {r : Record Value α} (hr : r.Blind) : Agree (SameMismatch s t) (p.read name r) (p'.read name r) := by
  cases h with
  | members ms ns n h => exact hr.ofMembers false (swaps_members ms ns n h)
  | items vs ws h =>
    exact hr.ofItems name (some (Record.elements r.names.length ++ " in sequence"))
      (swaps_items vs ws h)

/-- **Parts that differ in one text give messages, or are refused alike.** -/
theorem blind_ofParts (k : Kind) {p p' : Parts} (h : p.Swaps s t p') :
    Agree (SameMismatch s t) (ofParts k p) (ofParts k p') := by
  cases k with
  | request => exact (h.read "Request" blind_request).map Message.request
  | response => exact (h.read "Response" blind_response).map Message.response
  | event => exact (h.read "Event" blind_event).map Message.event

end Message

/-! ### Bodies -/

/-- Bodies of a kind that differ in one text are both read, or both refused, in the same words but for
what redaction leaves of the text. -/
def RefusedAlike (α : Type) [Typed α] [Inhabited α] (s t : String) : Prop :=
  ∀ (command : String) (v v' : Value) (m : Mismatch), Swaps s t v v' →
    readBody (α := α) (some v) = .error m → ∃ m', readBody (α := α) (some v') = .error m' ∧
      ((Session.State.bodyError command m).message = (Session.State.bodyError command m').message ↔
        m = m' ∨ shown s = shown t)

theorem blind_source : Blind (Typed.read (α := Source)) :=
  blind_read (by decide) <|
    ((Record.blind_defaulted _ _ blind_string.nullable).map _).seq
      (Record.blind_defaulted _ _ blind_string.nullable)

theorem blind_breakpoint : Blind (Typed.read (α := Breakpoint)) :=
  blind_read (by decide) <|
    ((((Record.blind_defaulted _ _ blind_int64.nullable).map _).seq
      (Record.blind_required _ blind_bool)).seq (Record.blind_defaulted _ _ blind_int64.nullable)).seq
      (Record.blind_defaulted _ _ blind_string.nullable)

theorem blind_stackFrame : Blind (Typed.read (α := StackFrame)) :=
  blind_read (by decide) <|
    (((((Record.blind_required _ blind_int64).map _).seq (Record.blind_required _ blind_string)).seq
      (Record.blind_defaulted _ _ blind_source.nullable)).seq
      (Record.blind_required _ blind_int64)).seq (Record.blind_defaulted _ _ blind_int64)

theorem blind_scope : Blind (Typed.read (α := Scope)) :=
  blind_read (by decide) <|
    (((Record.blind_required _ blind_string).map _).seq (Record.blind_defaulted _ _ blind_int64)).seq
      (Record.blind_defaulted _ _ blind_bool)

theorem blind_variable : Blind (Typed.read (α := Variable)) :=
  blind_read (by decide) <|
    ((((Record.blind_required _ blind_string).map _).seq (Record.blind_defaulted _ _ blind_string)).seq
      (Record.blind_defaulted _ _ blind_string.nullable)).seq (Record.blind_defaulted _ _ blind_int64)

theorem blind_thread : Blind (Typed.read (α := ProgramThread)) :=
  blind_read (by decide) <|
    ((Record.blind_required _ blind_int64).map _).seq (Record.blind_required _ blind_string)

theorem blind_setBreakpoints : Blind (Typed.read (α := SetBreakpointsBody)) :=
  blind_read (by decide) <| (Record.blind_defaulted _ _ blind_breakpoint.list).map _

theorem blind_stackTrace : Blind (Typed.read (α := StackTraceBody)) :=
  blind_read (by decide) <|
    ((Record.blind_defaulted _ _ blind_stackFrame.list).map _).seq
      (Record.blind_defaulted _ _ blind_int64.nullable)

theorem blind_scopes : Blind (Typed.read (α := ScopesBody)) :=
  blind_read (by decide) <| (Record.blind_defaulted _ _ blind_scope.list).map _

theorem blind_variables : Blind (Typed.read (α := VariablesBody)) :=
  blind_read (by decide) <| (Record.blind_defaulted _ _ blind_variable.list).map _

theorem blind_threads : Blind (Typed.read (α := ThreadsBody)) :=
  blind_read (by decide) <| (Record.blind_defaulted _ _ blind_thread.list).map _

theorem blind_stopped : Blind (Typed.read (α := StoppedBody)) :=
  blind_read (by decide) <|
    ((((Record.blind_defaulted _ _ blind_string).map _).seq
      (Record.blind_defaulted _ _ blind_int64.nullable)).seq
      (Record.blind_defaulted _ _ blind_string.nullable)).seq
      (Record.blind_defaulted _ _ blind_bool.nullable)

theorem blind_continued : Blind (Typed.read (α := ContinuedBody)) :=
  blind_read (by decide) <|
    ((Record.blind_defaulted _ _ blind_int64.nullable).map _).seq
      (Record.blind_defaulted _ _ blind_bool.nullable)

theorem blind_exited : Blind (Typed.read (α := ExitedBody)) :=
  blind_read (by decide) <| (Record.blind_defaulted _ _ blind_int64.nullable).map _

theorem blind_output : Blind (Typed.read (α := OutputBody)) :=
  blind_read (by decide) <|
    ((Record.blind_defaulted _ _ blind_string.nullable).map _).seq
      (Record.blind_defaulted _ _ blind_string)

theorem blind_threadEvent : Blind (Typed.read (α := ThreadBody)) :=
  blind_read (by decide) <|
    ((Record.blind_defaulted _ _ blind_string).map _).seq (Record.blind_required _ blind_int64)

/-! ### What is left of a text -/

theorem message_wrongType (found expected : String) :
    (Mismatch.wrongType found expected).message =
      "invalid type: " ++ found ++ ", expected " ++ expected := rfl

theorem described_str (s : String) : (Value.str s).described = "string " ++ Quoted.quote s := rfl

/-- The refusal of a text shows what redaction leaves of it. -/
theorem redact_found {expected : String} (he : Plain expected.toList) (s : String) :
    redact (Mismatch.wrongType (Value.str s).described expected).message =
      "invalid type: " ++ "string " ++ shown s ++ (", expected " ++ expected) := by
  have hfront : Plain ("invalid type: " ++ "string ").toList := by decide
  have hback : Plain (", expected " ++ expected).toList := by
    rw [String.toList_append]
    exact Plain.append (by decide) he
  have hmessage : (Mismatch.wrongType (Value.str s).described expected).message =
      "invalid type: " ++ "string " ++ Quoted.quote s ++ (", expected " ++ expected) := by
    rw [message_wrongType, described_str, @String.append_assoc _ _ expected,
      @String.append_assoc _ _ (Quoted.quote s)]
  rw [hmessage, redact_between hfront hback, shown]

theorem shown_of_described (h : (Value.str s).described = (Value.str t).described) :
    shown s = shown t := by
  rw [described_str, described_str, String.append_right_inj] at h
  exact congrArg redact h

/-- Refusals of fields say the same if they have the same reason, or if redaction leaves the same of the
texts. -/
theorem redact_eq_iff {m m' : Mismatch} (h : SameMismatch s t m m') :
    redact m.message = redact m'.message ↔ m = m' ∨ shown s = shown t := by
  cases h with
  | same m => exact ⟨fun _ => Or.inl rfl, fun _ => rfl⟩
  | found he =>
    rw [redact_found he, redact_found he, String.append_left_inj, String.append_right_inj]
    constructor
    · exact Or.inr
    · rintro (h | h)
      · exact shown_of_described (Mismatch.wrongType.inj h).1
      · exact h

/-! ### Refusals of bodies -/

theorem message_bodyError (command : String) (m : Mismatch) :
    (Session.State.bodyError command m).message =
      "unexpected `" ++ command ++ "` response: " ++ redact m.message := rfl

/-- **Bodies that differ in one text are refused alike**, if their readers are blind to it. -/
theorem refusedAlike_of_blind {α : Type} [Typed α] [Inhabited α]
    (hread : Blind (Typed.read (α := α))) (s t : String) : RefusedAlike α s t := by
  intro command v v' m hswap herror
  have hagree : Agree (SameMismatch s t) (readBody (α := α) (some v)) (readBody (some v')) := by
    cases hswap with
    | same v => exact .refl .same _
    | text => exact hread .text
    | item vs ws h => exact hread (.item vs ws h)
    | member ms ns n h => exact hread (.member ms ns n h)
  obtain ⟨m', herror', hsame⟩ := hagree.exists_error herror
  refine ⟨m', herror', ?_⟩
  rw [← redact_eq_iff hsame, message_bodyError, message_bodyError, String.append_right_inj]

/-! ### Refusals of messages -/

namespace Message

open DebugHost.Frame

theorem body_message_inj {a b : String} :
    (Fault.body a).message = (Fault.body b).message ↔ a = b := by
  show "dap protocol error: " ++ ("invalid DAP message: " ++ a) =
    "dap protocol error: " ++ ("invalid DAP message: " ++ b) ↔ a = b
  rw [String.append_right_inj, String.append_right_inj]

theorem decodeBody_part {bs rest : List UInt8} {k : Kind} {p : Parts} {m : Mismatch}
    (hparts : readParts bs = .ok ((k, p), rest)) (hm : ofParts k p = .error m) :
    decodeBody bs = .error (.body (redact m.message)) := by
  rw [decodeBody, read, hparts]
  simp only
  rw [hm]
  rfl

/-- **Messages that differ in the text of a field are refused alike**, but for what redaction leaves of the
quoted text: a refused field has no place. -/
theorem redacted_fields {bs bs' rest rest' : List UInt8} {k : Kind} {p p' : Parts} {m : Mismatch}
    (hparts : readParts bs = .ok ((k, p), rest)) (hparts' : readParts bs' = .ok ((k, p'), rest'))
    (hswap : p.Swaps s t p') (hm : ofParts k p = .error m) :
    ∃ m' e e', ofParts k p' = .error m' ∧ decodeBody bs = .error e ∧ decodeBody bs' = .error e' ∧
      (e.message = e'.message ↔ m = m' ∨ shown s = shown t) := by
  obtain ⟨m', hm', hsame⟩ := (blind_ofParts k hswap).exists_error hm
  refine ⟨m', _, _, hm', decodeBody_part hparts hm, decodeBody_part hparts' hm', ?_⟩
  rw [body_message_inj, redact_eq_iff hsame]

theorem message_unknownVariant (name : String) (known : List String) :
    (Mismatch.unknownVariant name known).message =
      "unknown variant " ++ ticked name ++ ", " ++ oneOf known := rfl

theorem suffix_ne_quote (p : Place) : '"' ∉ p.suffix.toList := by
  intro h
  simp only [Place.suffix, String.toList_append, List.mem_append] at h
  rcases h with ((h | h) | h) | h
  · exact absurd h (by decide)
  · exact toString_ne_quote _ h
  · exact absurd h (by decide)
  · exact toString_ne_quote _ h

/-- The refusal of a word for the kind shows what redaction leaves of the word between grave accents. -/
theorem redact_unknownVariant (s : String) (p : Place) :
    redact ((Mismatch.unknownVariant s Kind.names).message ++ p.suffix) =
      "unknown variant " ++ shownTicked s ++ (", " ++ oneOf Kind.names ++ p.suffix) := by
  have hfront : Plain "unknown variant ".toList := by decide
  have hnames : '"' ∉ (", " ++ oneOf Kind.names).toList := by decide
  have hback : '"' ∉ (", " ++ oneOf Kind.names ++ p.suffix).toList := by
    rw [String.toList_append]
    intro h
    rcases List.mem_append.mp h with h | h
    · exact hnames h
    · exact suffix_ne_quote p h
  rw [message_unknownVariant, ← redact_ticked hfront hback]
  simp only [String.append_assoc]

theorem decodeBody_kind {bs rest : List UInt8} {m : Mismatch} (h : read bs = .error (.kind m rest)) :
    decodeBody bs = .error (.body (redact (m.message ++ (Place.before bs rest).suffix))) := by
  rw [decodeBody, h]
  rfl

/-- **Messages that differ in an unknown word for the kind are refused alike**, but for what redaction leaves
of the word between grave accents: words of the same length are refused at the same place. -/
theorem redacted_tags {pre ls lt post : List UInt8} (hs : Literal ls s post) (ht : Literal lt t post)
    (hlength : ls.length = lt.length)
    (hread : read (pre ++ ls ++ post) = .error (.kind (.unknownVariant s Kind.names) post))
    (hread' : read (pre ++ lt ++ post) = .error (.kind (.unknownVariant t Kind.names) post)) :
    ∃ e e', decodeBody (pre ++ ls ++ post) = .error e ∧ decodeBody (pre ++ lt ++ post) = .error e' ∧
      (e.message = e'.message ↔ shownTicked s = shownTicked t) := by
  refine ⟨_, _, decodeBody_kind hread, decodeBody_kind hread', ?_⟩
  rw [body_message_inj, redact_unknownVariant, redact_unknownVariant, place_literal hs ht hlength,
    String.append_left_inj, String.append_right_inj]

/-! ### Unknown words for the kind -/

theorem readKind_unknown {w : String} (h : Kind.ofName? w = none) (rest : List UInt8) :
    readKind (octets (quoted w) ++ rest) = .error (.kind (.unknownVariant w Kind.names) rest) := by
  obtain ⟨bs, hbs, hread⟩ := readString_quoted w rest
  have hscalar : readScalar 34 (bs ++ rest) = .ok (.str w, rest) := by
    show (readString (bs ++ rest)).map _ = _
    rw [hread]
    rfl
  have hkind : kindOfValue (.str w) = .error (.unknownVariant w Kind.names) := by
    rw [kindOfValue, Kind.read, h]
  rw [hbs, List.cons_append, readKind, skipBlanks_cons (by decide)]
  simp only
  rw [if_neg (by decide), if_neg (by decide), hscalar]
  simp only [hkind]

/-- An object that starts with an unknown word for the kind is refused behind this word. -/
theorem read_unknown {w : String} (h : Kind.ofName? w = none) (ms : List (String × Value)) :
    read (octets (chars (.obj ((tag, .str w) :: ms)))) =
      .error (.kind (.unknownVariant w Kind.names) (octets (memberChars ms))) := by
  obtain ⟨fuel, -, hread⟩ := readParts_tag w ms
  rw [read, hread, readKind_unknown h]
  rfl

end Message

/-! ### What refusals show -/

open DebugHost.Message

/-- **Refusals of messages and bodies that differ in one text, `s` in the one and `t` in the other, say the
same just when redaction leaves the same of `s` and `t`.** Of a field of a message, or of a body, it leaves
nothing of a text if and only if there is no double quote in it; of an unknown word for the kind, if and
only if its double quotes come in pairs with no grave accent outside of them. -/
theorem refusals_show (s t : String) :
    (shown s = masked ↔ '"' ∉ s.toList) ∧
    (shownTicked s = maskedTicked ↔
      (quotes s.toList).2 = false ∧ '`' ∉ (quotes s.toList).1) ∧
    (∀ (bs bs' rest rest' : List UInt8) (k : Kind) (p p' : Parts) (m : Mismatch),
      readParts bs = .ok ((k, p), rest) → readParts bs' = .ok ((k, p'), rest') → p.Swaps s t p' →
      ofParts k p = .error m →
      ∃ m' e e', ofParts k p' = .error m' ∧ Frame.decodeBody bs = .error e ∧
        Frame.decodeBody bs' = .error e' ∧ (e.message = e'.message ↔ m = m' ∨ shown s = shown t)) ∧
    (∀ pre ls lt post : List UInt8, Literal ls s post → Literal lt t post → ls.length = lt.length →
      read (pre ++ ls ++ post) = .error (.kind (.unknownVariant s Kind.names) post) →
      read (pre ++ lt ++ post) = .error (.kind (.unknownVariant t Kind.names) post) →
      ∃ e e', Frame.decodeBody (pre ++ ls ++ post) = .error e ∧
        Frame.decodeBody (pre ++ lt ++ post) = .error e' ∧
        (e.message = e'.message ↔ shownTicked s = shownTicked t)) ∧
    RefusedAlike SetBreakpointsBody s t ∧ RefusedAlike StackTraceBody s t ∧
    RefusedAlike ScopesBody s t ∧ RefusedAlike VariablesBody s t ∧ RefusedAlike ThreadsBody s t ∧
    RefusedAlike StoppedBody s t ∧ RefusedAlike ContinuedBody s t ∧ RefusedAlike ExitedBody s t ∧
    RefusedAlike OutputBody s t ∧ RefusedAlike ThreadBody s t := by
  refine ⟨shown_eq_masked, shownTicked_eq_masked, ?_, ?_, refusedAlike_of_blind blind_setBreakpoints s t,
    refusedAlike_of_blind blind_stackTrace s t, refusedAlike_of_blind blind_scopes s t,
    refusedAlike_of_blind blind_variables s t, refusedAlike_of_blind blind_threads s t,
    refusedAlike_of_blind blind_stopped s t, refusedAlike_of_blind blind_continued s t,
    refusedAlike_of_blind blind_exited s t, refusedAlike_of_blind blind_output s t,
    refusedAlike_of_blind blind_threadEvent s t⟩
  · intro bs bs' rest rest' k p p' m hparts hparts' hswap hm
    exact redacted_fields hparts hparts' hswap hm
  · intro pre ls lt post hs ht hlength hread hread'
    exact redacted_tags hs ht hlength hread hread'

/-! ### Texts that are shown -/

/-- An event whose number is a text. -/
def numberedBy (s : String) : List (String × Value) := [("seq", .str s), ("event", .str "stopped")]

/-- What stands in front of the word for the kind in an object that starts with it. -/
def tagFront : List UInt8 := octets ('{' :: (quoted tag ++ [':']))

theorem octets_tagged (w : String) :
    octets (chars (.obj [(tag, .str w)])) = tagFront ++ octets (quoted w) ++ octets (memberChars []) := by
  simp only [tagFront, ← octets_append, chars, List.cons_append, List.append_assoc, List.nil_append]

theorem reads_numberedBy (s : String) :
    ∀ p ∈ numberedBy s, p.1 ≠ tag ∧ Reads (readValue partDepth) p.2 := by
  intro p hp
  simp only [numberedBy, List.mem_cons, List.not_mem_nil, or_false] at hp
  rcases hp with rfl | rfl
  · have hname : "seq" ≠ tag := by decide
    exact ⟨hname, readValue_chars (Nat.zero_le _) rfl⟩
  · have hname : "event" ≠ tag := by decide
    exact ⟨hname, readValue_chars (Nat.zero_le _) rfl⟩

/-- A double quote in the number of an event, in the word for the kind or in a body lets a part of the text
through. -/
theorem refusals_show_quote :
    (∃ e e', Frame.decodeBody (octets (chars (.obj ((tag, .str "event") :: numberedBy "a\"b")))) =
        .error e ∧
      Frame.decodeBody (octets (chars (.obj ((tag, .str "event") :: numberedBy "abcd")))) = .error e' ∧
      e.message ≠ e'.message) ∧
    (∃ e e', Frame.decodeBody (octets (chars (.obj [(tag, .str "a\"b")]))) = .error e ∧
      Frame.decodeBody (octets (chars (.obj [(tag, .str "abcd")]))) = .error e' ∧
      e.message ≠ e'.message) ∧
    ∃ m m', readBody (α := StoppedBody) (some (.obj [("threadId", .str "a\"b")])) = .error m ∧
      readBody (α := StoppedBody) (some (.obj [("threadId", .str "abcd")])) = .error m' ∧
      (Session.State.bodyError "stopped" m).message ≠ (Session.State.bodyError "stopped" m').message := by
  obtain ⟨hs, hticked, hfields, htags, -, -, -, -, -, hstopped, -⟩ := refusals_show "a\"b" "abcd"
  have ht : shown "abcd" = masked := shown_eq_masked.mpr (by decide)
  have hne : shown "a\"b" ≠ shown "abcd" := fun h => absurd (hs.mp (h.trans ht)) (by decide)
  have htt : shownTicked "abcd" = maskedTicked := shownTicked_of_plain (by decide)
  have hnet : shownTicked "a\"b" ≠ shownTicked "abcd" := by
    intro h
    exact absurd (hticked.mp (h.trans htt)) (by decide +kernel)
  have hfound : ∀ {m' : Mismatch},
      Mismatch.wrongType (Value.str "abcd").described "i64" = m' →
      ¬ (Mismatch.wrongType (Value.str "a\"b").described "i64" = m' ∨ shown "a\"b" = shown "abcd") := by
    rintro _ rfl (h | h)
    · exact hne (shown_of_described (Mismatch.wrongType.inj h).1)
    · exact hne h
  refine ⟨?_, ?_, ?_⟩
  · obtain ⟨m', e, e', hm', he, he', hiff⟩ := hfields _ _ [] [] .event (.members (numberedBy "a\"b"))
      (.members (numberedBy "abcd")) (.wrongType (Value.str "a\"b").described "i64")
      (readParts_members .event (reads_numberedBy _)) (readParts_members .event (reads_numberedBy _))
      (.members [] _ "seq" .text) rfl
    have hm : Mismatch.wrongType (Value.str "abcd").described "i64" = m' := by
      injection hm'
    exact ⟨e, e', he, he', fun h => hfound hm (hiff.mp h)⟩
  · obtain ⟨e, e', he, he', hiff⟩ := htags tagFront (octets (quoted "a\"b")) (octets (quoted "abcd"))
      (octets (memberChars [])) (readString_quoted _ _) (readString_quoted _ _) (by decide)
      (octets_tagged "a\"b" ▸ read_unknown (by decide) [])
      (octets_tagged "abcd" ▸ read_unknown (by decide) [])
    rw [← octets_tagged] at he he'
    exact ⟨e, e', he, he', fun h => hnet (hiff.mp h)⟩
  · obtain ⟨m', hm', hiff⟩ := hstopped "stopped" (.obj [("threadId", .str "a\"b")])
      (.obj [("threadId", .str "abcd")]) (.wrongType (Value.str "a\"b").described "i64")
      (.member [] [] "threadId" .text) rfl
    have hm : Mismatch.wrongType (Value.str "abcd").described "i64" = m' := by
      injection hm'
    exact ⟨_, m', rfl, hm', fun h => hfound hm (hiff.mp h)⟩

end DebugHost
