import DebugHost.Proofs.Connection.Traffic
import Mathlib.Data.List.Forall2

/-! # What the reader takes in

The messages that the reader takes in are those that the octets give, in their order
(`streamed_after`). What becomes of one of them is told by `Handles`, and nothing but a message that is
taken in completes a request, counts as an orphan, is reported or is refused (`records_change`). So
every answer has completed a request or counts as an orphan (`counted_after`), the events are reported
in their order, and nothing else but the end behind them (`reported_after`), and the requests of the
adapter are refused in their order, as long as there is a writer (`refused_after`). -/

namespace DebugHost

namespace Frame.Reader

variable {r r' : Reader} {bs : List UInt8}

/-! ### A reader and what has arrived -/

/-- A reader that stands where a new one would if `bs` had arrived, whether the stream goes on or has
ended. -/
def At (r : Reader) (bs : List UInt8) : Prop := r.Stands bs ∨ r.Holds bs

theorem At.push (h : r.At bs) (he : r.source.ended = false) (c : List UInt8) :
    (r.push c).At (bs ++ c) := by
  rcases h with h | h
  · exact Or.inl (h.push c)
  · exact absurd (he.symm.trans h.ended) Bool.false_ne_true

theorem At.finish (h : r.At bs) : r.finish.At bs := by
  rcases h with h | h
  · exact Or.inr h.finish
  · exact Or.inr ⟨h.full, rfl, h.reads⟩

theorem At.full (h : r.At bs) : r.source.Full := by
  rcases h with h | h
  · exact h.full
  · exact h.full

/-- Reading does not change whether the stream has ended. -/
theorem At.ended (h : r.At bs) {o : Option Outcome} (hn : r.next = (o, r')) :
    r'.source.ended = r.source.ended := by
  have hf : Follows [] r r.next.1 r.next.2 := run_keeps _ h.full fun _ => rfl
  rw [hn] at hf
  cases hf with
  | on _ ended _ => exact ended
  | gives _ ended _ _ => exact ended

theorem At.waits (h : r.At bs) (hn : r.next = (none, r')) : r'.At bs := by
  rcases h with h | h
  · exact Or.inl (h.waits hn)
  · obtain ⟨o, r'', hn', -⟩ := next_ended h.full h.ended
    rw [hn] at hn'
    cases hn'

/-- A message that is given comes next among the results. -/
theorem At.gives (h : r.At bs) {m : Message} (hn : r.next = (some (.message m), r')) :
    ∃ left, r'.At left ∧ ∀ more, (r.source.ended = true → more = []) →
      Frame.results (bs ++ more) = .message m :: Frame.results (left ++ more) := by
  rcases h with h | h
  · obtain ⟨left, hstands, hgives⟩ := h.gives hn
    refine ⟨left, Or.inl hstands, fun more _ => ?_⟩
    obtain ⟨hgave, hleft⟩ := hgives more
    have hread : reading .start (bs ++ more) = (.message m, left ++ more) :=
      Prod.ext hgave (hleft (by simp))
    rw [results_eq, hread, resultsFrom]
  · obtain ⟨o, r'', hn', hf⟩ := next_ended h.full h.ended
    rw [hn] at hn'
    cases hn'
    cases hf with
    | gives full ended gave left =>
      rw [List.append_nil, h.reads] at gave left
      refine ⟨_, Or.inr ⟨full, ended.trans h.ended, rfl⟩, fun more hmore => ?_⟩
      obtain rfl := hmore h.ended
      have hread : reading .start bs = (.message m, _) := Prod.ext gave (left (by simp))
      rw [List.append_nil, results_eq, hread, resultsFrom]
      rfl

end Frame.Reader

namespace Traffic

open DebugHost.Json

variable {x y : Traffic}

/-! ### What the octets say -/

/-- Whether the reader goes on reading. -/
def Intake.isOn : Intake → Bool
  | .reading => true
  | .holding _ => true
  | _ => false

/-- Whether a move neither closes the connection nor shuts it down, and brings neither the reader nor
the writer to an end. -/
def Move.isQuiet : Move → Bool
  | .shutdown => false
  | .cancel => false
  | .failWrite _ => false
  | .stopWrite => false
  | .goOn => false
  | _ => true

/-- What a quiet move leaves alone. -/
structure Quiet (x y : Traffic) : Prop where
  closed : y.connection.closed = x.connection.closed
  cancelled : y.cancelled = x.cancelled
  outlet : y.outlet = x.outlet
  on : y.intake.isOn = true → x.intake.isOn = true

theorem Quiet.refl (x : Traffic) : Quiet x x := ⟨rfl, rfl, rfl, id⟩

theorem quiet_put {o : Option Call} {c' : Call} {conn : Connection} {ms : List Message} (me : Nat)
    (hgoes : Goes x o c' conn ms) : Quiet x (x.put me c' conn ms) :=
  ⟨hgoes.rest.1, rfl, rfl, id⟩

theorem quiet_move (x : Traffic) {m : Move} (hm : m.isQuiet = true) : Quiet x (x.move m) := by
  cases m with
  | shutdown => cases hm
  | cancel => cases hm
  | failWrite text => cases hm
  | stopWrite => cases hm
  | goOn => cases hm
  | ask me command arguments =>
    show Quiet x (x.ask me command arguments)
    unfold ask
    split
    · exact quiet_put me .asked
    · exact .refl x
  | step me =>
    show Quiet x (x.advance me)
    unfold advance
    split
    · exact .refl x
    · next c hme => exact quiet_put me (.steps (steps_step x c))
  | wait me =>
    show Quiet x (x.await me)
    unfold await
    split
    · exact quiet_put me .waits
    · exact .refl x
  | drop me =>
    show Quiet x (x.drop me)
    unfold drop
    split
    · exact quiet_put me .dropped
    · exact .refl x
  | write =>
    show Quiet x (x.write none)
    unfold write
    split
    · exact ⟨rfl, rfl, rfl, id⟩
    · exact .refl x
  | read =>
    show Quiet x x.read
    cases hi : x.intake with
    | reading =>
      obtain ⟨hclosed, -, -, hcancelled, hout, -⟩ := (takes_read hi).rest
      exact ⟨hclosed, hcancelled, hout, fun _ => by rw [hi]; rfl⟩
    | _ =>
      unfold read
      rw [hi]
      exact .refl x
  | failRead text =>
    show Quiet x (x.failRead text)
    unfold failRead
    split
    · exact ⟨rfl, rfl, rfl, fun hon => by cases hon⟩
    · exact .refl x
  | stopRead =>
    show Quiet x x.stopRead
    unfold stopRead
    split
    · split
      · exact ⟨rfl, rfl, rfl, fun hon => by cases hon⟩
      · exact .refl x
    · exact .refl x
  | arrive chunk =>
    show Quiet x (x.arrive chunk)
    unfold arrive
    split
    · exact .refl x
    · exact ⟨rfl, rfl, rfl, id⟩
  | arriveEnd => exact ⟨rfl, rfl, rfl, id⟩
  | take => exact ⟨rfl, rfl, rfl, id⟩
  | pass millis => exact ⟨rfl, rfl, rfl, id⟩

/-- Whether octets may come behind those that have arrived. -/
def MayCome (x : Traffic) (more : List UInt8) : Prop :=
  x.link.inbound.source.ended = true → more = []

/-- What was taken in is what the octets say first, and what is left of them says the rest. -/
structure Streamed (x : Traffic) : Prop where
  first : ∀ more, x.MayCome more → x.received.map .message <+: Frame.results (x.arrived ++ more)
  rest : x.intake.isOn = true → ∃ bs, x.link.inbound.At bs ∧ ∀ more, x.MayCome more →
    Frame.results (x.arrived ++ more) = x.received.map .message ++ Frame.results (bs ++ more)

theorem streamed_start (timeout : Duration) : Streamed (start timeout) where
  first _ _ := List.nil_prefix
  rest _ := ⟨[], Or.inl Frame.Reader.stands_new, fun _ _ => rfl⟩

theorem Streamed.of_same (h : Streamed x) (hl : y.link.inbound = x.link.inbound)
    (ha : y.arrived = x.arrived) (hr : y.received = x.received)
    (hi : y.intake.isOn = true → x.intake.isOn = true) : Streamed y where
  first := by
    unfold MayCome
    rw [hl, ha, hr]
    exact h.first
  rest hon := by
    unfold MayCome
    rw [hl, ha, hr]
    exact h.rest (hi hon)

theorem Streamed.takes (h : Streamed x) (hi : x.intake = .reading) (ht : Takes x y) : Streamed y := by
  obtain ⟨bs, hat, hrest⟩ := h.rest (by rw [hi]; rfl)
  cases ht with
  | nothing r hn =>
    have hended := hat.ended hn
    refine ⟨fun more hm => h.first more fun he => hm (hended.trans he), fun _ => ?_⟩
    exact ⟨bs, hat.waits hn, fun more hm => hrest more fun he => hm (hended.trans he)⟩
  | last o r reason hn ho =>
    have hended := hat.ended hn
    exact ⟨fun more hm => h.first more fun he => hm (hended.trans he), fun hon => by cases hon⟩
  | message m hn hm =>
    obtain ⟨left, hat', hgives⟩ := hat.gives hn
    have hmore : ∀ more, y.MayCome more → x.MayCome more :=
      fun more hm he => hm ((hat.ended hn).trans he)
    have hall : ∀ more, y.MayCome more → Frame.results (x.arrived ++ more) =
        (x.received ++ [m]).map .message ++ Frame.results (left ++ more) := by
      intro more hm
      rw [hrest more (hmore more hm), hgives more (hmore more hm), List.map_append, List.append_assoc]
      rfl
    constructor
    · intro more hm'
      rw [hm.arrived, hm.received]
      exact ⟨_, (hall more hm').symm⟩
    · intro _
      rw [hm.arrived, hm.received]
      exact ⟨left, hat', hall⟩

theorem Streamed.change (hc : Change x y) (h : Streamed x) : Streamed y := by
  cases hc with
  | takes hi ht => exact h.takes hi ht
  | arrives chunk he =>
    have hmore : ∀ more, x.MayCome more := fun more hm => absurd (he.symm.trans hm) Bool.false_ne_true
    constructor
    · intro more _
      show _ <+: Frame.results (x.arrived ++ chunk ++ more)
      rw [List.append_assoc]
      exact h.first (chunk ++ more) (hmore _)
    · intro hon
      obtain ⟨bs, hat, hrest⟩ := h.rest hon
      refine ⟨bs ++ chunk, hat.push he chunk, fun more _ => ?_⟩
      show Frame.results (x.arrived ++ chunk ++ more) = _
      rw [List.append_assoc, List.append_assoc]
      exact hrest (chunk ++ more) (hmore _)
  | arrivesEnd =>
    constructor
    · intro more hm
      exact h.first more fun _ => hm rfl
    · intro hon
      obtain ⟨bs, hat, hrest⟩ := h.rest hon
      exact ⟨bs, hat.finish, fun more hm => hrest more fun _ => hm rfl⟩
  | idle => exact h
  | hands r hi => exact h.of_same rfl rfl rfl fun _ => by rw [hi]; rfl
  | stops reason hi => exact h.of_same rfl rfl rfl fun hon => by cases hon
  | records reason hi => exact h.of_same rfl rfl rfl fun hon => by cases hon
  | abandons reason hi hc => exact h.of_same rfl rfl rfl fun hon => by cases hon
  | ends reason hi => exact h.of_same rfl rfl rfl fun hon => by cases hon
  | _ => exact h.of_same rfl rfl rfl fun hon => hon

/-- **What was taken in is what the octets say**, after every schedule. -/
theorem streamed_after (timeout : Duration) (σ : Nat → Move) (n : Nat) : Streamed (after timeout σ n) :=
  after_keeps timeout (streamed_start timeout) (fun _ _ => Streamed.change) σ n

/-! ### What becomes of a message -/

/-- The answers among messages. -/
def responses (ms : List Message) : List Response :=
  ms.filterMap fun | .response r => some r | _ => none

/-- The events among messages. -/
def events (ms : List Message) : List Event :=
  ms.filterMap fun | .event e => some e | _ => none

/-- The requests among messages. -/
def requests (ms : List Message) : List Request :=
  ms.filterMap fun | .request q => some q | _ => none

theorem responses_append (ms ms' : List Message) :
    responses (ms ++ ms') = responses ms ++ responses ms' := List.filterMap_append

theorem events_append (ms ms' : List Message) : events (ms ++ ms') = events ms ++ events ms' :=
  List.filterMap_append

theorem requests_append (ms ms' : List Message) :
    requests (ms ++ ms') = requests ms ++ requests ms' := List.filterMap_append

/-- A reader that has taken something in goes on. -/
theorem TakesIn.goesOn {m : Message} (h : TakesIn x y m) : y.intake.isOn = true := by
  cases h.handles with
  | completes r hin hconn hi => rw [hi]; rfl
  | orphan r hout hconn hi => rw [hi]; rfl
  | event e hconn hi => rw [hi]; rfl
  | refused q ho hconn hi => rw [hi]; rfl
  | unheard q ho hconn hi => rw [hi]; rfl

/-- No message is taken in, and nothing is done to one. -/
structure Rests (x y : Traffic) : Prop where
  received : y.received = x.received
  completed : y.completed = x.completed
  orphans : y.connection.orphans = x.connection.orphans
  responses : responses y.posted = responses x.posted
  outlet : x.outlet = .ended → y.outlet = .ended

/-- What a change does to messages: one is taken in, or the end is reported, or nothing. -/
inductive Records (x y : Traffic) : Prop where
  | message (m : Message) (h : TakesIn x y m)
  | ends (reason : CloseReason) (hi : x.intake = .abandoned reason) (hi' : y.intake = .ended)
    (hreported : y.reported = x.reported ++ [.closed reason]) (h : Rests x y)
  | rests (hi : y.intake = .ended ↔ x.intake = .ended) (hreported : y.reported = x.reported)
    (h : Rests x y)

/-- A call hands over no answer. -/
theorem Goes.responses {o : Option Call} {c' : Call} {conn : Connection} {ms : List Message}
    (h : Goes x o c' conn ms) : responses ms = [] := by
  cases h with
  | steps h => cases h <;> rfl
  | _ => rfl

theorem records_change (hc : Change x y) : Records x y := by
  cases hc with
  | takes hi ht =>
    cases ht with
    | nothing r hn => exact .rests Iff.rfl rfl ⟨rfl, rfl, rfl, rfl, id⟩
    | last o r reason hn ho => exact .rests (by simp [hi]) rfl ⟨rfl, rfl, rfl, rfl, id⟩
    | message m hn hm => exact .message m hm
  | ends reason hi => exact .ends reason hi rfl (List.append_assoc ..).symm ⟨rfl, rfl, rfl, rfl, id⟩
  | call me hme hgoes =>
    refine .rests Iff.rfl rfl ⟨rfl, rfl, hgoes.rest.2.1, ?_, id⟩
    exact (responses_append ..).trans (by rw [hgoes.responses, List.append_nil])
  | told => exact .rests Iff.rfl (List.append_nil _) ⟨rfl, rfl, rfl, rfl, id⟩
  | stops reason hi => exact .rests (by simp [hi]) rfl ⟨rfl, rfl, rfl, rfl, id⟩
  | hands r hi => exact .rests (by simp [hi]) rfl ⟨rfl, rfl, rfl, rfl, id⟩
  | records reason hi => exact .rests (by simp [hi]) rfl ⟨rfl, rfl, rfl, rfl, id⟩
  | abandons reason hi hc => exact .rests (by simp [hi]) rfl ⟨rfl, rfl, rfl, rfl, id⟩
  | lost m rest text hq ho =>
    exact .rests Iff.rfl rfl ⟨rfl, rfl, rfl, rfl, fun h => by rw [ho] at h; cases h⟩
  | blamed text ho =>
    exact .rests Iff.rfl rfl ⟨rfl, rfl, rfl, rfl, fun h => by rw [ho] at h; cases h⟩
  | endWriting ho hc => exact .rests Iff.rfl rfl ⟨rfl, rfl, rfl, rfl, fun _ => rfl⟩
  | _ => exact .rests Iff.rfl rfl ⟨rfl, rfl, rfl, rfl, id⟩

/-! ### Answers -/

/-- Every answer that was taken in has completed a request or counts as an orphan. -/
structure Counted (x : Traffic) : Prop where
  completed : x.completed.Sublist (responses x.received)
  orphans : (responses x.received).length = x.completed.length + x.connection.orphans

theorem Counted.of_same (h : Counted x) (hr : responses y.received = responses x.received)
    (hc : y.completed = x.completed) (ho : y.connection.orphans = x.connection.orphans) : Counted y where
  completed := by
    rw [hr, hc]
    exact h.completed
  orphans := by
    rw [hr, hc, ho]
    exact h.orphans

theorem Counted.change (hc : Change x y) (h : Counted x) : Counted y := by
  cases records_change hc with
  | rests hi hreported hrests =>
    exact h.of_same (congrArg responses hrests.received) hrests.completed hrests.orphans
  | ends reason hi hi' hreported hrests =>
    exact h.of_same (congrArg responses hrests.received) hrests.completed hrests.orphans
  | message m hm =>
    have hr := (congrArg responses hm.received).trans (responses_append _ _)
    cases hm.handles with
    | completes r hin hconn hi hcompleted =>
      constructor
      · rw [hr, hcompleted]
        exact h.completed.append (List.Sublist.refl _)
      · have hone : (responses [.response r]).length = 1 := rfl
        rw [hr, hcompleted, hconn, List.length_append, List.length_append, h.orphans, hone]
        show _ = _ + 1 + x.connection.orphans
        omega
    | orphan r hout hconn hi hcompleted =>
      constructor
      · rw [hr, hcompleted]
        exact h.completed.trans (List.sublist_append_left ..)
      · rw [hr, hcompleted, hconn, List.length_append, h.orphans, Nat.add_assoc]
        rfl
    | event e hconn hi hcompleted =>
      exact h.of_same (hr.trans (List.append_nil _)) hcompleted (by rw [hconn])
    | refused q ho hconn hi hcompleted =>
      exact h.of_same (hr.trans (List.append_nil _)) hcompleted (by rw [hconn]; rfl)
    | unheard q ho hconn hi hcompleted =>
      exact h.of_same (hr.trans (List.append_nil _)) hcompleted (by rw [hconn]; rfl)

/-- **Answers are counted after every schedule.** -/
theorem counted_after (timeout : Duration) (σ : Nat → Move) (n : Nat) : Counted (after timeout σ n) :=
  after_keeps timeout ⟨List.Sublist.refl _, rfl⟩ (fun _ _ => Counted.change) σ n

/-! ### Reports -/

/-- What is reported are the events that were taken in, and behind them at most the end. -/
structure Reported (x : Traffic) : Prop where
  going : x.intake ≠ .ended → x.reported = (events x.received).map .event
  last : x.intake = .ended → ∃ reason, x.reported = (events x.received).map .event ++ [.closed reason]

theorem Reported.change (hc : Change x y) (h : Reported x) : Reported y := by
  cases records_change hc with
  | rests hi hreported hrests =>
    constructor
    · intro hgoing
      rw [hreported, hrests.received]
      exact h.going (mt hi.mpr hgoing)
    · intro hover
      rw [hreported, hrests.received]
      exact h.last (hi.mp hover)
  | ends reason hi hi' hreported hrests =>
    constructor
    · exact fun hgoing => absurd hi' hgoing
    · intro _
      refine ⟨reason, ?_⟩
      rw [hreported, hrests.received, h.going (by rw [hi]; simp)]
  | message m hm =>
    have hr := (congrArg events hm.received).trans (events_append _ _)
    have hgoing := h.going (by rw [hm.reading]; simp)
    have hon := hm.goesOn
    constructor
    · intro _
      rw [hr, List.map_append, ← hgoing]
      cases hm.handles with
      | event e hconn hi hcompleted hreported => exact hreported
      | completes r hin hconn hi hcompleted hreported => exact hreported.trans (List.append_nil _).symm
      | orphan r hout hconn hi hcompleted hreported => exact hreported.trans (List.append_nil _).symm
      | refused q ho hconn hi hcompleted hreported => exact hreported.trans (List.append_nil _).symm
      | unheard q ho hconn hi hcompleted hreported => exact hreported.trans (List.append_nil _).symm
    · intro hover
      rw [hover] at hon
      cases hon

/-- **Reports are right after every schedule.** -/
theorem reported_after (timeout : Duration) (σ : Nat → Move) (n : Nat) : Reported (after timeout σ n) :=
  after_keeps timeout ⟨fun _ => rfl, fun h => by cases h⟩ (fun _ _ => Reported.change) σ n

/-! ### Refusals -/

/-- An answer that refuses a request of the adapter: it names the request and repeats its command. -/
structure Refuses (r : Response) (q : Request) : Prop where
  requestSeq : r.requestSeq = q.seq
  command : r.command = q.command
  success : r.success = false
  message : r.message = some (Connection.refusal q)
  body : r.body = none

/-- The answers that were handed to the writer refuse the requests that were taken in first: all of
them, as long as there is a writer. -/
def Refused (x : Traffic) : Prop :=
  ∃ qs, List.Forall₂ Refuses (responses x.posted) qs ∧ qs <+: requests x.received ∧
    (x.outlet ≠ .ended → qs = requests x.received)

theorem Refused.of_same (h : Refused x) (hp : responses y.posted = responses x.posted)
    (hr : requests y.received = requests x.received) (ho : x.outlet = .ended → y.outlet = .ended) :
    Refused y := by
  obtain ⟨qs, hrefuses, hfirst, hall⟩ := h
  refine ⟨qs, hp ▸ hrefuses, hr ▸ hfirst, fun hne => ?_⟩
  rw [hr]
  exact hall (mt ho hne)

theorem Refused.change (hc : Change x y) (h : Refused x) : Refused y := by
  cases records_change hc with
  | rests hi hreported hrests =>
    exact h.of_same hrests.responses (congrArg requests hrests.received) hrests.outlet
  | ends reason hi hi' hreported hrests =>
    exact h.of_same hrests.responses (congrArg requests hrests.received) hrests.outlet
  | message m hm =>
    have hr := (congrArg requests hm.received).trans (requests_append _ _)
    have hout : x.outlet = .ended → y.outlet = .ended := hm.outlet.trans
    cases hm.handles with
    | event e hconn hi hcompleted hreported hposted =>
      exact h.of_same (congrArg responses hposted) (hr.trans (List.append_nil _)) hout
    | completes r hin hconn hi hcompleted hreported hposted =>
      exact h.of_same (congrArg responses hposted) (hr.trans (List.append_nil _)) hout
    | orphan r hnone hconn hi hcompleted hreported hposted =>
      exact h.of_same (congrArg responses hposted) (hr.trans (List.append_nil _)) hout
    | unheard q ho hconn hi hcompleted hreported hposted =>
      obtain ⟨qs, hrefuses, hfirst, -⟩ := h
      refine ⟨qs, ?_, ?_, fun hne => absurd (hout ho) hne⟩
      · rw [hposted]
        exact hrefuses
      · rw [hr]
        exact hfirst.trans (List.prefix_append ..)
    | refused q ho hconn hi hcompleted hreported hposted =>
      obtain ⟨qs, hrefuses, -, hall⟩ := h
      obtain rfl := hall ho
      have hone : Refuses (.refusing x.connection.nextSeq q (Connection.refusal q)) q :=
        ⟨rfl, rfl, rfl, rfl, rfl⟩
      refine ⟨requests x.received ++ [q], ?_, ?_, fun _ => hr.symm⟩
      · rw [hposted, responses_append]
        exact List.rel_append hrefuses (.cons hone .nil)
      · rw [hr]
        exact List.prefix_rfl

/-- **Requests of the adapter are refused in every schedule.** -/
theorem refused_after (timeout : Duration) (σ : Nat → Move) (n : Nat) : Refused (after timeout σ n) :=
  after_keeps timeout ⟨[], .nil, List.prefix_rfl, fun _ => rfl⟩ (fun _ _ => Refused.change) σ n

end Traffic
end DebugHost
