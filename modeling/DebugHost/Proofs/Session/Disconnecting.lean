import DebugHost.Proofs.Debugger.Places
import DebugHost.Proofs.Inspection.Asking
import DebugHost.Proofs.Session.Ending
import DebugHost.Proofs.Session.Outcomes

/-! # Users end a session

Any number of users end a session, beside each other and beside all that others do with it. A call looks
whether the session goes on, tells it that the user wants to stop, asks the adapter to end the program, and
ends the session whether or not the adapter answers. When it has come to its end, it has learnt in one of
three ways that the session is over (`Parting.Learns`), and the session is (`Crowd.over_of_learns`). A call
asks the adapter at most once, and only after it has seen that the session goes on (`Parting.protocol`), so
that a call that begins when another one has come to its end asks for nothing (`Crowd.unasked`). But calls
that go on beside each other have all seen the same, and each of them asks (`Crowd.parted`). -/

namespace DebugHost

open DebugHost.Session DebugHost.Script
open DebugHost.Traffic (requests)

variable {ρ : Type}

namespace Parting

/-! ### What users call -/

/-- Whether an action is open to every call: it does not tell the outcome of what others have ordered, and
it does not ask the adapter to end the program. -/
def Civil : Action → Prop
  | .reply .. => False
  | .post c => Room.ticket? c = none
  | .send command _ => command ≠ "disconnect"
  | _ => True

/-- What users call: some end the session, the others do anything else. -/
inductive Fit : Script ρ → Prop where
  | ends (f : Except DebugError Unit → ρ) : Fit (f <$> disconnect)
  | other (s : Script ρ) (civil : s.Within Civil) : Fit s

theorem civil_of_passive {a : Action} (h : Passive a) : Civil a := by
  cases a with
  | reply t r => exact h
  | post c => exact h.elim
  | send command v => exact h.elim
  | _ => exact trivial

theorem civil_resume (kind : StepKind) (thread : Int) : (resume kind thread).Within Civil :=
  within_resume (fun _ => civil_of_passive) (fun _ => trivial) kind thread

theorem civil_pause (thread : Int) : (pause thread).Within Civil :=
  within_pause (fun _ => civil_of_passive) (fun _ => by simp [Civil]) thread

theorem civil_setBreakpoints (path : Path) (lines : Lines) : (setBreakpoints path lines).Within Civil :=
  within_setBreakpoints (fun _ => civil_of_passive) trivial (fun _ => trivial)
    (fun _ => by simp [Civil]) path lines

theorem civil_breakpoints : breakpoints.Within Civil := within_breakpoints trivial fun _ => trivial

theorem civil_threads : threads.Within Civil :=
  within_threads (fun _ => civil_of_passive) (fun _ => by simp [Civil]) fun _ => trivial

theorem civil_inspect (q : Inspection.Query) : (inspect q).Within Civil :=
  within_inspect (fun _ => civil_of_passive) (fun _ => trivial) (fun _ => trivial) (fun _ _ => trivial)
    (fun _ _ => trivial) (fun k _ => by cases k <;> simp [Civil, Inspection.Key.command]) q

theorem civil_configurationDone : configurationDone.Within Civil :=
  within_configurationDone (fun _ => civil_of_passive) (fun _ => by simp [Civil]) rfl

theorem civil_waitFor (state : RunState) : (waitFor state).Within Civil :=
  within_waitFor (fun _ => civil_of_passive) state

theorem civil_handshake (launch : LaunchArguments) (files : List (Path × Lines)) :
    (handshake launch files).Within Civil :=
  within_handshake (fun _ => civil_of_passive) trivial (fun _ => trivial) rfl
    (fun command hc _ => by rintro rfl; simp at hc) launch files

/-- No call tells the outcome of what others have ordered. -/
theorem Fit.spares {s : Script ρ} (h : Fit s) (ticket : Nat) : s.Within (Spares ticket) := by
  have hcivil {a : Action} (ha : Civil a) : Spares ticket a := by
    cases a with
    | reply t r => exact ha.elim
    | post c => exact fun ht => by cases ht.symm.trans ha
    | _ => exact trivial
  cases h with
  | ends f =>
    have hdisconnect : disconnect.Within (Spares ticket) :=
      within_disconnect (fun _ ha => hcivil (civil_of_passive ha)) (fun _ => trivial) fun _ => trivial
    exact Within.bind hdisconnect fun _ => trivial
  | other s hs => exact hs.mono fun _ => hcivil

/-! ### What a call does -/

/-- What the adapter is asked to do. -/
def farewell : Json.Value := Script.written (DisconnectArguments.mk true)

/-- What a call does when it knows what has become of its request. -/
def closing : Except DebugError Response → Script (Except DebugError Unit)
  | .ok _ => ended
  | .error .sessionTerminated => ended
  | .error e => do
    .perform (.log .debug "disconnect request failed" [("error", .shown e.message)])
    ended
where
  /-- It ends the session. -/
  ended : Script (Except DebugError Unit) := do
    let _ ← obey (.terminate .userStopped)
    return .ok ()

theorem disconnect_eq : disconnect = (do
    let s ← perform .status
    if s.state = .terminated then return .ok ()
    else do
      let taken ← obey .stopping
      if taken then request "disconnect" farewell >>= closing else return .ok ()) := rfl

/-- Whatever has become of the request, the session is ended. -/
theorem adheres_closing {P : Type} {π : Protocol P} {goal : P → Except DebugError Unit → Prop}
    (r : Except DebugError Response)
    (hlog : ∀ e p, π.may p (.log .debug "disconnect request failed" [("error", .shown e)]))
    (hended : ∀ p, closing.ended.Adheres π goal p) (p : P) : (closing r).Adheres π goal p := by
  have hfailed (e : String) : (do
      .perform (.log .debug "disconnect request failed" [("error", .shown e)])
      closing.ended : Script (Except DebugError Unit)).Adheres π goal p :=
    Adheres.bind (adheres_perform (hlog e p) fun _ => hended _)
  cases r with
  | ok b => exact hended p
  | error e => cases e <;> first | exact hended p | exact hfailed _

/-! ### What a call learns -/

/-- What can tell a task that the session is over: the status, an order that is not taken, or the outcome
of the order to end it. -/
inductive Learns (h : List Deed) : Prop where
  | found (s : Status) (ended : s.state = .terminated) (seen : (⟨.status, s⟩ : Deed) ∈ h)
  | refused (o : Order) (order : (⟨.order o, none⟩ : Deed) ∈ h)
  | carried (ticket : Nat) (o : Option (Except DebugError Unit))
    (order : (⟨.order (.terminate .userStopped), some ticket⟩ : Deed) ∈ h)
    (outcome : (⟨.outcome ticket, o⟩ : Deed) ∈ h)

/-- Who gives an order has it refused, or is told of its outcome. -/
theorem trail_obey (o : Order) (h : List Deed) : (obey o).Adheres .trail (fun h taken =>
    if taken then
      ∃ ticket r, (⟨.order o, some ticket⟩ : Deed) ∈ h ∧ (⟨.outcome ticket, r⟩ : Deed) ∈ h
    else (⟨.order o, none⟩ : Deed) ∈ h) h := by
  refine Adheres.bind (adheres_perform trivial fun ticket => ?_)
  cases ticket with
  | none => exact List.mem_append_right _ (List.mem_singleton_self _)
  | some ticket =>
    refine Adheres.bind (adheres_perform trivial fun r => ?_)
    refine ⟨ticket, r, List.mem_append_left _ (List.mem_append_right _ (List.mem_singleton_self _)), ?_⟩
    exact List.mem_append_right _ (List.mem_singleton_self _)

/-- **A call comes to its end when it has learnt that the session is over**, and it always succeeds. -/
theorem trail_disconnect (h : List Deed) :
    disconnect.Adheres .trail (fun h r => r = .ok () ∧ Learns h) h := by
  have hended (h : List Deed) :
      closing.ended.Adheres .trail (fun h r => r = .ok () ∧ Learns h) h := by
    refine Adheres.bind ((trail_obey (.terminate .userStopped) h).mono fun h taken hobeyed => ?_)
    refine ⟨rfl, ?_⟩
    cases taken with
    | false => exact .refused _ hobeyed
    | true =>
      obtain ⟨ticket, r, horder, houtcome⟩ := hobeyed
      exact .carried ticket r horder houtcome
  rw [disconnect_eq]
  refine Adheres.bind (adheres_perform trivial fun s => ?_)
  split
  · next hs => exact ⟨rfl, .found s hs (List.mem_append_right _ (List.mem_singleton_self _))⟩
  · refine Adheres.bind ((trail_obey .stopping _).mono fun h taken hobeyed => ?_)
    cases taken with
    | false => exact ⟨rfl, .refused _ hobeyed⟩
    | true =>
      exact Adheres.bind (adheres_trail _ _ fun h r =>
        adheres_closing r (fun _ _ => trivial) hended h)

/-! ### A call asks once, after it has seen that the session goes on -/

/-- How far a task has come. -/
structure Place where
  /-- It has seen that the session goes on. -/
  seen : Bool
  /-- It has asked the adapter to end the program. -/
  asked : Bool

/-- Where a deed leads. -/
def Place.next (p : Place) : Deed → Place
  | ⟨.status, s⟩ => { p with seen := p.seen || s.state != .terminated }
  | ⟨.send command _, _⟩ => { p with asked := p.asked || command == "disconnect" }
  | _ => p

/-- What a task may attempt: it asks the adapter to end the program only once, and only after it has seen
that the session goes on. -/
def Place.may (p : Place) : Action → Prop
  | .send command v => command = "disconnect" → p.seen = true ∧ p.asked = false ∧ v = farewell
  | _ => True

/-- Who ends a session. -/
def protocol : Protocol Place where
  first := ⟨false, false⟩
  may := Place.may
  next := Place.next
  rests _ := True

theorem may_civil (p : Place) {a : Action} (ha : Civil a) : protocol.may p a := by
  cases a with
  | send command v => exact fun hc => absurd hc ha
  | _ => exact trivial

/-- Who has seen that the session goes on has looked at its status. -/
theorem status_of_seen {h : List Deed} (hs : (protocol.place h).seen = true) :
    ∃ s : Status, s.state ≠ .terminated ∧ (⟨.status, s⟩ : Deed) ∈ h := by
  induction h using List.reverseRecOn with
  | nil => cases hs
  | append_singleton h x ih =>
    rw [protocol.place_snoc] at hs
    have hbefore (hb : (protocol.place h).seen = true) :
        ∃ s : Status, s.state ≠ .terminated ∧ (⟨.status, s⟩ : Deed) ∈ h ++ [x] := by
      obtain ⟨s, hgoing, hmem⟩ := ih hb
      exact ⟨s, hgoing, List.mem_append_left _ hmem⟩
    obtain ⟨a, r⟩ := x
    cases a with
    | status =>
      rcases Bool.or_eq_true_iff.mp hs with hb | hgoing
      · exact hbefore hb
      · exact ⟨r, bne_iff_ne.mp hgoing, List.mem_append_right _ (List.mem_singleton_self _)⟩
    | _ => exact hbefore hs

/-- Who has asked is known to have asked. -/
theorem asked_of_mem {h : List Deed} {v : Json.Value} {r : Except DebugError Exchange}
    (hx : (⟨.send "disconnect" v, r⟩ : Deed) ∈ h) : (protocol.place h).asked = true := by
  induction h using List.reverseRecOn with
  | nil => cases hx
  | append_singleton h x ih =>
    rw [protocol.place_snoc]
    rcases List.mem_append.mp hx with hx | hx
    · have hasked := ih hx
      obtain ⟨a, r'⟩ := x
      cases a with
      | send command v' => exact Bool.or_eq_true_iff.mpr (.inl hasked)
      | _ => exact hasked
    · cases List.mem_singleton.mp hx
      exact Bool.or_true _

/-- **A call that ends the session** keeps to the protocol. -/
theorem adheres_disconnect : disconnect.Adheres protocol (fun _ _ => True) protocol.first := by
  have hended (p : Place) : closing.ended.Adheres protocol (fun _ _ => True) p := by
    have hcivil : closing.ended.Within Civil :=
      Within.bind (within_obey trivial fun _ => trivial) fun _ => trivial
    exact hcivil.adheres_anywhere (fun p _ => may_civil p) fun _ _ => trivial
  rw [disconnect_eq]
  refine Adheres.bind (adheres_perform trivial fun s => ?_)
  split
  · exact trivial
  · next hs =>
    have hseen : protocol.next protocol.first ⟨.status, s⟩ = ⟨true, false⟩ := by
      have hgoing : (s.state != .terminated) = true := bne_iff_ne.mpr hs
      simp only [protocol, Place.next, hgoing, Bool.or_true]
    rw [hseen]
    -- the order to stop leaves it where it is
    have hstop : (obey .stopping).Within fun a =>
        protocol.may ⟨true, false⟩ a ∧ ∀ r, protocol.next ⟨true, false⟩ ⟨a, r⟩ = ⟨true, false⟩ :=
      within_obey ⟨trivial, fun _ => rfl⟩ fun _ => ⟨trivial, fun _ => rfl⟩
    refine Adheres.bind (hstop.adheres (fun _ ha => ha) fun taken => ?_)
    cases taken with
    | false => exact trivial
    | true =>
      refine Adheres.bind (Adheres.bind (adheres_perform (fun _ => ⟨rfl, rfl, rfl⟩) fun r => ?_))
      have hclosing (r : Except DebugError Response) (p : Place) :
          (closing r).Adheres protocol (fun _ _ => True) p :=
        adheres_closing r (fun _ _ => trivial) hended p
      cases r with
      | error e => exact hclosing _ _
      | ok x =>
        have hanswer : (answerOf x).Within Civil := within_answerOf (fun _ => civil_of_passive) x
        exact hanswer.adheres_anywhere (fun p _ => may_civil p) fun p r => hclosing r p

end Parting

namespace Crowd

open Debugger

/-! ### The end of a session -/

section End

variable {fit : Script ρ → Prop} {d : Debugger ρ} {σ : Nat → Happening fit} {m n : Nat}

/-- Why the session ends when something happens, if it does. -/
def cause? (d : Debugger ρ) (h : Happening fit) : Option Termination := (input? d h).bind Input.cause?

/-- Whether the session was told that the user wants to stop while the first `n` things happened. -/
def stopTaken (d : Debugger ρ) (σ : Nat → Happening fit) (n : Nat) : Bool :=
  (List.range n).any fun k => (input? (after d σ k) (σ k)).any Input.asksStop

/-- In `m` the session takes the first input that ends it. -/
structure Ends (d : Debugger ρ) (σ : Nat → Happening fit) (m : Nat) (cause : Termination) : Prop where
  cause : cause? (after d σ m) (σ m) = some cause
  first : ∀ k < m, cause? (after d σ k) (σ k) = none

theorem stopTaken_succ (d : Debugger ρ) (σ : Nat → Happening fit) (n : Nat) :
    stopTaken d σ (n + 1) =
      (stopTaken d σ n || (input? (after d σ n) (σ n)).any Input.asksStop) := by
  unfold stopTaken
  rw [List.range_succ, List.any_append, List.any_cons, List.any_nil, Bool.or_false]

/-- An input that ends the session ends it. -/
theorem over_of_cause {h : Happening fit} {cause : Termination} (hc : cause? d h = some cause) :
    (happen d h).Over ∧ (happen d h).room.state.status.termination =
      some (State.causeOf d.room.state.stopping cause) := by
  obtain ⟨i, hi, hw⟩ := Option.bind_eq_some_iff.mp hc
  obtain ⟨-, o, hh, hs⟩ := handles_happen hi
  obtain ⟨hover, hterm, -, -⟩ := State.handles_over hw hh
  rw [← hs] at hover hterm
  exact ⟨hover, hterm⟩

/-- Until it takes an input that ends it, a session goes on. -/
theorem going (hd : ¬ d.Over) (hstop : d.room.state.stopping = false)
    (hn : ∀ k < n, cause? (after d σ k) (σ k) = none) :
    ¬ (after d σ n).Over ∧ (session d σ n).stopping = stopTaken d σ n := by
  induction n with
  | zero => exact ⟨hd, hstop⟩
  | succ n ih =>
    obtain ⟨hgoing, hs⟩ := ih fun k hk => hn k (Nat.lt_succ_of_lt hk)
    have hcause := hn n (Nat.lt_succ_self n)
    rw [stopTaken_succ, ← hs]
    cases hi : input? (after d σ n) (σ n) with
    | none =>
      have hb := beside_happen hi
      refine ⟨fun ho => hgoing ((congrArg Status.state hb.status).symm.trans ho), ?_⟩
      exact hb.stopping.trans (Bool.or_false _).symm
    | some i =>
      rw [cause?, hi] at hcause
      obtain ⟨-, o, hh, hstate⟩ := handles_happen hi
      obtain ⟨hgo, hst, -⟩ := State.handles_goesOn hgoing hcause hh
      rw [← hstate] at hgo hst
      exact ⟨hgo, hst⟩

/-- **A session that is over was ended**: by the first input that could, and its cause is that of this
input unless the session had been told that the user wants to stop. -/
theorem ended (hd : ¬ d.Over) (hstop : d.room.state.stopping = false) (ho : (after d σ n).Over) :
    ∃ m < n, ∃ cause, Ends d σ m cause ∧
      (session d σ n).status.termination = some (State.causeOf (stopTaken d σ m) cause) := by
  classical
  have hexists : ∃ m, m < n ∧ cause? (after d σ m) (σ m) ≠ none := by
    by_contra hnone
    refine (going hd hstop fun k hk => ?_).1 ho
    by_contra hk'
    exact hnone ⟨k, hk, hk'⟩
  obtain ⟨hm, hcause⟩ := Nat.find_spec hexists
  generalize hfind : Nat.find hexists = m at hm hcause
  have hfirst : ∀ k < m, cause? (after d σ k) (σ k) = none := by
    intro k hk
    by_contra hk'
    exact Nat.find_min hexists (hfind ▸ hk) ⟨hk.trans hm, hk'⟩
  obtain ⟨cause, hcause⟩ := Option.ne_none_iff_exists'.mp hcause
  obtain ⟨hover, hterm⟩ := over_of_cause hcause
  have hsame := (over_mono (d := d) (σ := σ) (m := m + 1) hover hm).2
  refine ⟨m, hm, cause, ⟨hcause, hfirst⟩, ?_⟩
  rw [hsame, ← (going hd hstop hfirst).2]
  exact hterm

end End

/-! ### Beside each other -/

section Parted

open Parting

variable {timeout : Duration} {id : SessionId} {σ : Nat → Happening (Parting.Fit (ρ := ρ))}
  {m n me : Nat}

theorem governs_parting : Governs Parting.protocol (Parting.Fit (ρ := ρ)) where
  rests := trivial
  calls s hs := by
    cases hs with
    | ends f => exact Adheres.map adheres_disconnect
    | other s hs => exact hs.adheres_anywhere (fun p _ => may_civil p) fun _ _ => trivial
  watches x epoch ticket := by
    have hwatch : (watchResume x epoch ticket).Within fun a => ∀ p, Parting.protocol.may p a :=
      within_watch (fun _ => trivial) (fun _ _ => trivial) (fun _ _ => trivial) fun _ _ => trivial
    exact hwatch.adheres_anywhere (fun p _ ha => ha p) fun _ _ => trivial

/-- Who looks at the status sees whether the session is over. -/
theorem over_iff_status {s : Status}
    (hx : deed? (after (opened timeout id) σ n) (σ n) = some (me, ⟨.status, s⟩)) :
    s.state = .terminated ↔ (after (opened timeout id) σ n).Over := by
  have hgot : s = (session (opened timeout id) σ n).published := by
    have hattempt := (attempt_of_deed hx).1
    cases hattempt
    rfl
  rw [hgot, (lockstep (lockstep_opened timeout id) σ n).published]
  rfl

/-- Who has learnt that the session is over knows it. -/
theorem over_of_learns (hl : Learns (deeds (opened timeout id) σ n me)) :
    (after (opened timeout id) σ n).Over := by
  cases hl with
  | found s hs hmem =>
    obtain ⟨k, hk, hx⟩ := mem_deeds.mp hmem
    exact (over_mono ((over_iff_status hx).mp hs) hk.le).1
  | refused o hmem =>
    obtain ⟨k, hk, hx⟩ := mem_deeds.mp hmem
    have hover := (posted_opened timeout id σ k).listens (listening_of_refused hx)
    exact (over_mono hover hk.le).1
  | carried ticket o horder houtcome =>
    obtain ⟨j, -, hgave⟩ := mem_deeds.mp horder
    obtain ⟨k, hk, hx⟩ := mem_deeds.mp houtcome
    have hsettled : (after (opened timeout id) σ k).room.outcome? ticket ≠ none := by
      have hgot := (attempt_of_deed hx).1
      intro hnone
      simp only [attempt, hnone] at hgot
      cases hgot
    rcases taken_of_settled (fun s hs => hs.spares) hgave hsettled with hover | ⟨l, -, hlk, htaken⟩
    · exact (over_mono hover hk.le).1
    · have hcause : cause? (after (opened timeout id) σ l) (σ l) = some .userStopped := by
        rw [cause?, htaken]
        rfl
      have hover := (over_of_cause hcause).1
      have hln : l + 1 ≤ n := by omega
      exact (over_mono (d := opened timeout id) (σ := σ) (m := l + 1) hover hln).1

/-- **A call that has come to its end leaves the session ended**, and it succeeds. -/
theorem over_of_returned {c id' : Nat} {f : Except DebugError Unit → ρ}
    {fits : Parting.Fit (f <$> disconnect)} {r : ρ} (hc : σ c = .call id' (f <$> disconnect) fits)
    (hr : Returned (opened timeout id) σ c n r) :
    r = f (.ok ()) ∧ (after (opened timeout id) σ n).Over := by
  have hadheres : (f <$> disconnect).Adheres .trail (fun h r => r = f (.ok ()) ∧ Learns h) [] := by
    refine Adheres.map ((trail_disconnect []).mono fun h r hr => ?_)
    rw [hr.1]
    exact ⟨rfl, hr.2⟩
  have hgoal := goal_of_returned below_opened hc hadheres hr
  rw [Protocol.place_trail] at hgoal
  exact ⟨hgoal.1, over_of_learns hgoal.2⟩

/-! ### Requests to end the program -/

/-- Whether a request asks the adapter to end the program. -/
def isFarewell (q : Request) : Bool := q.command == "disconnect"

/-- The requests to end the program, with the tasks that have sent them. -/
def farewells (d : Debugger ρ) (σ : Nat → Happening (Parting.Fit (ρ := ρ))) (n : Nat) :
    List (Nat × Request) :=
  gathered d σ (fun _ me x => (x.request?.filter isFarewell).map fun q => (me, q)) n

theorem farewell_of_request {x : Deed} {q : Request} (h : x.request?.filter isFarewell = some q) :
    q.command = "disconnect" ∧ ∃ r, x = ⟨.send "disconnect" q.arguments, r⟩ := by
  obtain ⟨hq, hkeep⟩ := Option.filter_eq_some_iff.mp h
  have hcommand : q.command = "disconnect" := beq_iff_eq.mp hkeep
  obtain ⟨a, r⟩ := x
  cases a with
  | send command v =>
    cases r with
    | error e => cases hq
    | ok y =>
      cases hq
      cases hcommand
      exact ⟨rfl, _, rfl⟩
  | _ => cases hq

/-- Each was sent by a task. -/
theorem sent_farewell {p : Nat × Request} (hp : p ∈ farewells (opened timeout id) σ n) :
    p.2.command = "disconnect" ∧ ∃ k < n, ∃ r, deed? (after (opened timeout id) σ k) (σ k) =
      some (p.1, ⟨.send "disconnect" p.2.arguments, r⟩) := by
  obtain ⟨k, hk, me, x, hx, hq⟩ := mem_gathered.mp hp
  obtain ⟨q, hrequest, rfl⟩ := Option.map_eq_some_iff.mp hq
  obtain ⟨hcommand, r, rfl⟩ := farewell_of_request hrequest
  exact ⟨hcommand, k, hk, r, hx⟩

theorem kept_parting (timeout : Duration) (id : SessionId) (σ : Nat → Happening (Parting.Fit (ρ := ρ)))
    (n : Nat) : Kept Parting.protocol (opened timeout id) σ n :=
  kept governs_parting below_opened bare_opened σ n

/-- Who asks has seen that the session goes on, and has not asked before. -/
theorem may_ask {v : Json.Value} {r : Except DebugError Exchange}
    (hx : deed? (after (opened timeout id) σ n) (σ n) = some (me, ⟨.send "disconnect" v, r⟩)) :
    v = farewell ∧ (∃ s : Status, s.state ≠ .terminated ∧
      (⟨.status, s⟩ : Deed) ∈ deeds (opened timeout id) σ n me) ∧
    ∀ v' r', (⟨.send "disconnect" v', r'⟩ : Deed) ∉ deeds (opened timeout id) σ n me := by
  obtain ⟨hseen, hasked, hv⟩ := (kept_parting timeout id σ n).may hx rfl
  refine ⟨hv, status_of_seen hseen, fun v' r' hmem => ?_⟩
  rw [asked_of_mem hmem] at hasked
  cases hasked

/-- **Only calls that end the session ask for the end of the program.** -/
theorem caller_of_farewell {v : Json.Value} {r : Except DebugError Exchange}
    (hx : deed? (after (opened timeout id) σ n) (σ n) = some (me, ⟨.send "disconnect" v, r⟩)) :
    ∃ c < n, ∃ id' f fits, σ c = .call id' (f <$> disconnect) fits ∧
      caller (opened timeout id) σ c = me := by
  obtain ⟨-, t, next, -, ht, hnext, -, -⟩ := acts_of_deed hx
  cases t with
  | watch s =>
    -- what the session has asked for sends nothing
    have hwatch (x : Exchange) (epoch ticket : Nat) :
        (watchResume x epoch ticket).Within fun a => ∀ command v, a ≠ .send command v :=
      within_watch nofun (fun _ => nofun) (fun _ => nofun) fun _ => nofun
    have hwithin := within_watching bare_opened hwatch ht
    cases s with
    | done u => cases hnext
    | act a next' => cases hnext; exact absurd rfl (hwithin.1 _ _)
  | call id' s =>
    obtain ⟨c, hc, s', hs', hσ, hcaller⟩ := call_begun below_opened bare_opened ht
    subst hcaller
    cases hs' with
    | ends f => exact ⟨c, hc, id', f, _, hσ, rfl⟩
    | other s' hcivil => exact absurd rfl (kind_of_call below_opened hσ hcivil hx)
  | _ => cases hnext

/-- **Each call asks at most once.** -/
theorem nodup_farewells (timeout : Duration) (id : SessionId)
    (σ : Nat → Happening (Parting.Fit (ρ := ρ))) (n : Nat) :
    ((farewells (opened timeout id) σ n).map (·.1)).Nodup := by
  induction n with
  | zero => exact List.nodup_nil
  | succ n ih =>
    cases hx : deed? (after (opened timeout id) σ n) (σ n) with
    | none =>
      rw [farewells, gathered_silent hx]
      exact ih
    | some w =>
      obtain ⟨me, x⟩ := w
      rw [farewells, gathered_deed hx]
      cases hq : x.request?.filter isFarewell with
      | none =>
        rw [Option.map_none, Option.toList_none, List.append_nil]
        exact ih
      | some q =>
        obtain ⟨-, r, rfl⟩ := farewell_of_request hq
        rw [Option.map_some, Option.toList_some, List.map_append, List.nodup_append]
        refine ⟨ih, List.nodup_singleton _, fun k hk k' hk' hsame => ?_⟩
        obtain rfl : k' = me := List.mem_singleton.mp hk'
        obtain ⟨p, hp, rfl⟩ := List.mem_map.mp hk
        obtain ⟨-, j, hj, r', hx'⟩ := sent_farewell hp
        rw [hsame] at hx'
        exact (may_ask hx).2.2 _ _ (mem_deeds.mpr ⟨j, hj, hx'⟩)

/-- **A call that begins when another one has come to its end asks for nothing.** -/
theorem unasked {c c' id' : Nat} {f : Except DebugError Unit → ρ}
    {fits : Parting.Fit (f <$> disconnect)} {r : ρ} (hc : σ c = .call id' (f <$> disconnect) fits)
    (hr : Returned (opened timeout id) σ c c' r) :
    caller (opened timeout id) σ c' ∉ (farewells (opened timeout id) σ n).map (·.1) := by
  intro hmem
  obtain ⟨p, hp, hcaller⟩ := List.mem_map.mp hmem
  obtain ⟨-, k, hk, r', hx⟩ := sent_farewell hp
  rw [hcaller] at hx
  obtain ⟨-, ⟨s, hgoing, hseen⟩, -⟩ := may_ask hx
  obtain ⟨j, -, hstatus⟩ := mem_deeds.mp hseen
  -- it has looked at the status after it had begun, when the session was over
  have hlater : c' < j := begun_of_deed below_opened hstatus
  have hover := (over_mono (over_of_returned hc hr).2 hlater.le).1
  exact hgoing ((over_iff_status hstatus).mpr hover)

/-! ### Whatever happens -/

/-- The calls that end the session come one after the other. -/
def InTurn (d : Debugger ρ) (σ : Nat → Happening (Parting.Fit (ρ := ρ))) : Prop :=
  ∀ c c' id₁ id₂ f f' fits fits', c < c' → σ c = .call id₁ (f <$> disconnect) fits →
    σ c' = .call id₂ (f' <$> disconnect) fits' → ∃ r, Returned d σ c c' r

/-- What has become of a session that users end, when `n` things have happened. -/
structure Parted (timeout : Duration) (id : SessionId) (σ : Nat → Happening (Parting.Fit (ρ := ρ)))
    (n : Nat) : Prop where
  /-- When a call has come to its end, it has succeeded, and the session is shown as ended. -/
  outcome : ∀ c id' f fits r, σ c = .call id' (f <$> disconnect) fits →
    Returned (opened timeout id) σ c n r →
      r = f (.ok ()) ∧ (session (opened timeout id) σ n).published.state = .terminated
  /-- The cause that is shown is that of the first input that ended the session, unless it had been told
  before that the user wants to stop. -/
  cause : (session (opened timeout id) σ n).published.state = .terminated →
    ∃ m < n, ∃ cause, Ends (opened timeout id) σ m cause ∧
      (session (opened timeout id) σ n).published.termination =
        some (if stopTaken (opened timeout id) σ m then .userStopped else cause)
  /-- The requests to end the program are written in the order in which they were sent. -/
  written : (requests (after (opened timeout id) σ n).link.written).filter isFarewell <+:
    (farewells (opened timeout id) σ n).map (·.2)
  /-- They come from calls that end the session, and say that the program is to be ended. -/
  callers : ∀ p ∈ farewells (opened timeout id) σ n,
    p.2.command = "disconnect" ∧ p.2.arguments = farewell ∧
    ∃ c < n, ∃ id' f fits, σ c = .call id' (f <$> disconnect) fits ∧
      caller (opened timeout id) σ c = p.1
  /-- Each call sends at most one. -/
  once : ((farewells (opened timeout id) σ n).map (·.1)).Nodup
  /-- A call that begins when another one has come to its end sends none. -/
  later : ∀ c id' f fits c' r, σ c = .call id' (f <$> disconnect) fits →
    Returned (opened timeout id) σ c c' r →
      caller (opened timeout id) σ c' ∉ (farewells (opened timeout id) σ n).map (·.1)
  /-- Where the calls come one after the other, there is at most one in all. -/
  single : InTurn (opened timeout id) σ →
    ((requests (after (opened timeout id) σ n).link.written).filter isFarewell).length ≤ 1

/-- The requests to end the program go out as they were sent. -/
theorem written_farewells (timeout : Duration) (id : SessionId)
    (σ : Nat → Happening (Parting.Fit (ρ := ρ))) (n : Nat) :
    (requests (after (opened timeout id) σ n).link.written).filter isFarewell <+:
      (farewells (opened timeout id) σ n).map (·.2) := by
  have hkeep (q : Request) (kind : StepKind) (hq : q.command = kind.command) : isFarewell q = false := by
    rw [isFarewell, hq]
    cases kind <;> rfl
  have hsame (n : Nat) : (farewells (opened timeout id) σ n).map (·.2) =
      gathered (opened timeout id) σ (fun _ _ x => x.request?.filter isFarewell) n := by
    induction n with
    | zero => rfl
    | succ n ih =>
      rw [farewells, gathered, gathered, List.map_append, ← ih]
      congr 1
      cases deed? (after (opened timeout id) σ n) (σ n) with
      | none => rfl
      | some w =>
        simp only [Option.bind_some]
        cases w.2.request?.filter isFarewell <;> rfl
  obtain ⟨rs, hrs, hfilter⟩ := conveys_gathered hkeep (conveys_opened timeout id) σ n
  rw [hsame, ← hfilter]
  exact hrs.written.filter isFarewell

/-- Where the calls come one after the other, only the first of them asks. -/
theorem single_farewell (hturn : InTurn (opened timeout id) σ) :
    (farewells (opened timeout id) σ n).length ≤ 1 := by
  have hcaller {p : Nat × Request} (hp : p ∈ farewells (opened timeout id) σ n) :
      ∃ c id' f fits, σ c = .call id' (f <$> disconnect) fits ∧
        caller (opened timeout id) σ c = p.1 := by
    obtain ⟨-, k, -, r, hx⟩ := sent_farewell hp
    obtain ⟨c, -, hσ⟩ := caller_of_farewell hx
    exact ⟨c, hσ⟩
  have hsame : ∀ p ∈ farewells (opened timeout id) σ n, ∀ q ∈ farewells (opened timeout id) σ n,
      p.1 = q.1 := by
    intro p hp q hq
    obtain ⟨c, id₁, f, fits, hc, hpc⟩ := hcaller hp
    obtain ⟨c', id₂, f', fits', hc', hqc⟩ := hcaller hq
    rcases Nat.lt_trichotomy c c' with hlt | rfl | hlt
    · obtain ⟨r, hr⟩ := hturn c c' id₁ id₂ f f' fits fits' hlt hc hc'
      have hnot := unasked (n := n) hc hr
      rw [hqc] at hnot
      exact absurd (List.mem_map_of_mem hq) hnot
    · exact hpc.symm.trans hqc
    · obtain ⟨r, hr⟩ := hturn c' c id₂ id₁ f' f fits' fits hlt hc' hc
      have hnot := unasked (n := n) hc' hr
      rw [hpc] at hnot
      exact absurd (List.mem_map_of_mem hp) hnot
  have honce := nodup_farewells timeout id σ n
  generalize farewells (opened timeout id) σ n = ps at hsame honce
  match ps, hsame, honce with
  | [], _, _ => exact Nat.zero_le 1
  | [p], _, _ => exact Nat.le_refl 1
  | p :: q :: rest, hsame, honce =>
    have hpq : p.1 ∈ (q :: rest).map (·.1) := by
      rw [hsame p (.head _) q (.tail _ (.head _))]
      exact List.mem_cons_self
    exact absurd hpq (List.nodup_cons.mp honce).1

/-- **Users end a session**, any number of them, in any order, whatever the adapter does and whatever
others do: a call that has come to its end leaves the session ended, and those that begin then ask the
adapter for nothing. -/
theorem parted (timeout : Duration) (id : SessionId) (σ : Nat → Happening (Parting.Fit (ρ := ρ)))
    (n : Nat) : Parted timeout id σ n where
  outcome c id' f fits r hc hr := by
    obtain ⟨hr, hover⟩ := over_of_returned hc hr
    refine ⟨hr, ?_⟩
    rw [(lockstep (lockstep_opened timeout id) σ n).published]
    exact hover
  cause ho := by
    rw [(lockstep (lockstep_opened timeout id) σ n).published] at ho ⊢
    have hnew : ¬ (opened timeout id : Debugger ρ).Over := by
      rw [opened_eq]
      exact fun h => RunState.noConfusion h
    exact ended hnew (by rw [opened_eq]; rfl) ho
  written := written_farewells timeout id σ n
  callers p hp := by
    obtain ⟨hcommand, k, hk, r, hx⟩ := sent_farewell hp
    obtain ⟨c, hc, id', f, fits, hσ, hcaller⟩ := caller_of_farewell hx
    exact ⟨hcommand, (may_ask hx).1, c, hc.trans hk, id', f, fits, hσ, hcaller⟩
  once := nodup_farewells timeout id σ n
  later c id' f fits c' r hc hr := unasked hc hr
  single hturn := by
    have hle := (written_farewells timeout id σ n).length_le
    rw [List.length_map] at hle
    exact hle.trans (single_farewell hturn)

/-- Two calls begin beside each other: both see that the session goes on, both are told that it knows that
the user wants to stop, and both send their requests. -/
def besides (n : Nat) : Happening (Parting.Fit (ρ := Except DebugError Unit)) :=
  ([.call 0 _ (.ends fun r => r), .call 1 _ (.ends fun r => r), .task 3, .task 4, .task 3, .task 4,
    .session, .session, .task 3, .task 4, .task 3, .task 4, .outside .write rfl,
    .outside .write rfl] : List (Happening Parting.Fit)).getD n (.task 3)

set_option maxRecDepth 20000 in
/-- **Calls beside each other do ask twice.** -/
theorem parted_twice : ¬ ∀ (σ : Nat → Happening (Parting.Fit (ρ := Except DebugError Unit))) (n : Nat),
    ((requests (after (opened ⟨5000⟩ ⟨1⟩) σ n).link.written).filter isFarewell).length ≤ 1 := by
  intro h
  have htwo : ((requests (after (opened ⟨5000⟩ ⟨1⟩) besides 14).link.written).filter
      isFarewell).length = 2 := by
    unfold besides
    simp only [opened_eq]
    decide +kernel
  have hle := h besides 14
  rw [htwo] at hle
  exact absurd hle (by decide)

end Parted

end Crowd
end DebugHost
