import DebugHost.Proofs.Session.Patience

/-! # Handshakes in which a request is refused

The adapter answers one request of a handshake with an error, and all others that it receives with a
success, each in time (`Refuses`, `Prompt`). Then what the call is told of a request is what the adapter has
answered, unless the connection is closed (`Waited.verdict`).

So the handshake fails with the refusal, under the command of the request that was refused
(`handshakeRefused`). Unless that request is the launch, nothing can come between, but that the connection is
closed before the refusal is read. The answer to the launch, though, is looked at last: what fails before is
told in its place, and if the session does not leave its first state that is the wait for it
(`RefusalOutcome`). -/

namespace DebugHost

open DebugHost.Json DebugHost.Session DebugHost.Script
open DebugHost.Traffic (requests)

namespace Debugger

variable {d : Resumer} {σ : Nat → LoneBeat} {goal : List Deed → Except DebugError Unit → Prop}
  {me id i j k l m n : Nat} {command : String} {v : Value} {y : Exchange}
  {r : Except DebugError Response}

/-! ### Deeds and beats -/

/-- A deed was done in a beat, those before it in the beats before, and those behind it since. -/
theorem deeds_split {before since : List Deed} {x : Deed} (h : d.deeds σ n = before ++ x :: since) :
    ∃ k < n, (d.alone σ k).deed? (σ k).1 = some x ∧
      ∀ z, z ∈ since ↔ ∃ m, k < m ∧ m < n ∧ (d.alone σ m).deed? (σ m).1 = some z := by
  induction n generalizing since with
  | zero =>
    have hnil : d.deeds σ 0 = [] := rfl
    rw [hnil] at h
    exact absurd h.symm (List.append_ne_nil_of_right_ne_nil _ (List.cons_ne_nil _ _))
  | succ n ih =>
    rw [deeds_succ] at h
    cases hn : (d.alone σ n).deed? (σ n).1 with
    | none =>
      rw [hn, Option.toList_none, List.append_nil] at h
      obtain ⟨k, hk, hx, hsince⟩ := ih h
      refine ⟨k, Nat.lt_succ_of_lt hk, hx, fun z => (hsince z).trans ⟨?_, ?_⟩⟩
      · rintro ⟨m, hkm, hmn, hz⟩
        exact ⟨m, hkm, Nat.lt_succ_of_lt hmn, hz⟩
      · rintro ⟨m, hkm, hmn, hz⟩
        rcases Nat.lt_succ_iff_lt_or_eq.mp hmn with hmn | rfl
        · exact ⟨m, hkm, hmn, hz⟩
        · rw [hn] at hz
          cases hz
    | some w =>
      rw [hn, Option.toList_some] at h
      rcases List.eq_nil_or_concat since with rfl | ⟨since', w', rfl⟩
      · obtain ⟨-, hw⟩ := List.append_inj' h rfl
        cases hw
        refine ⟨n, Nat.lt_succ_self n, hn, fun z => ⟨fun hz => (by cases hz), ?_⟩⟩
        rintro ⟨m, hnm, hmn, -⟩
        exact absurd hmn (Nat.not_lt.mpr hnm)
      · have hlast : d.deeds σ n ++ [w] = (before ++ x :: since') ++ [w'] := by
          rw [h, List.concat_eq_append, List.append_assoc, List.cons_append]
        obtain ⟨hbefore, hw⟩ := List.append_inj' hlast rfl
        cases hw
        obtain ⟨k, hk, hx, hsince⟩ := ih hbefore
        refine ⟨k, Nat.lt_succ_of_lt hk, hx, fun z => ?_⟩
        rw [List.concat_eq_append, List.mem_append, hsince, List.mem_singleton]
        constructor
        · rintro (⟨m, hkm, hmn, hz⟩ | rfl)
          · exact ⟨m, hkm, Nat.lt_succ_of_lt hmn, hz⟩
          · exact ⟨n, hk, Nat.lt_succ_self n, hn⟩
        · rintro ⟨m, hkm, hmn, hz⟩
          rcases Nat.lt_succ_iff_lt_or_eq.mp hmn with hmn | rfl
          · exact .inl ⟨m, hkm, hmn, hz⟩
          · exact .inr (Option.some.inj (hz.symm.trans hn))

/-- What the call is told of it has waited for. -/
theorem waited_of_deed (hd : Mutely Patient goal me id d) {x : Exchange}
    (hx : (d.alone σ n).deed? (σ n).1 = some ⟨.response x, r⟩) :
    ∃ k l command v y, Waited d σ k l n command y r ∧ y.seq = x.seq ∧
      (d.alone σ k).deed? (σ k).1 = some ⟨.send command v, .ok y⟩ := by
  have hawaits : Awaits (d.deeds σ n) x := lawful hd.mute hd.course hx
  obtain ⟨before, command, v, y, since, p, hdeeds, hown, rfl⟩ := hawaits
  obtain ⟨k, hk, hsend, hsince⟩ := deeds_split hdeeds
  have hlimit : (⟨.limit, p⟩ : Deed) ∈ since ++ [⟨.limit, p⟩] :=
    List.mem_append_right _ (List.mem_singleton_self _)
  obtain ⟨l, hkl, hln, hl⟩ := (hsince _).mp hlimit
  refine ⟨k, l, command, v, y, ⟨⟨v, hsend⟩, ⟨p, hl, hx⟩, ⟨hkl, hln⟩, ?_⟩, rfl, hsend⟩
  intro m hkm hmn z b hz hseq
  have hmem : (⟨.response z, b⟩ : Deed) ∈ since := by
    have hm := (hsince _).mpr ⟨m, hkm, hmn, hz⟩
    exact mem_of_quiet rfl hm
  -- of a request that was sent later, under a greater number
  obtain ⟨command', v', y', hy', hseq'⟩ := hown z b hmem
  obtain ⟨i, hki, -, hi⟩ := (hsince _).mp (List.mem_append_left _ hy')
  obtain ⟨-, -, hknown, -⟩ := sent_of_deed hd hsend
  obtain ⟨-, hnext, -, -⟩ := sent_of_deed hd hi
  have hmono : (d.alone σ (k + 1)).link.connection.nextSeq ≤ (d.alone σ i).link.connection.nextSeq :=
    nextSeq_mono hki
  omega

theorem sends_of_request {q : Request} (hq : d.request? σ k = some q) :
    ∃ y, (d.alone σ k).deed? (σ k).1 = some ⟨.send q.command q.arguments, .ok y⟩ ∧ y.seq = q.seq := by
  obtain ⟨x, hx, hrequest⟩ := Option.bind_eq_some_iff.mp hq
  unfold Deed.request? at hrequest
  split at hrequest
  · next command v y =>
    cases hrequest
    exact ⟨y, hx, rfl⟩
  · cases hrequest

theorem request_of_deed (hsend : (d.alone σ k).deed? (σ k).1 = some ⟨.send command v, .ok y⟩) :
    d.request? σ k = some ⟨y.seq, command, v⟩ := by
  rw [request?, hsend]
  rfl

theorem mem_sent {q : Request} (hkn : k < n) (hq : d.request? σ k = some q) :
    q ∈ sent (d.deeds σ n) := by
  obtain ⟨x, hx, hrequest⟩ := Option.bind_eq_some_iff.mp hq
  exact List.mem_filterMap.mpr ⟨x, mem_deeds.mpr ⟨k, hkn, hx⟩, hrequest⟩

/-- Requests have rising numbers. -/
theorem sent_rising {law : List Deed → Action → Prop} (hd : Mutely law goal me id d) (n : Nat) :
    (sent (d.deeds σ n)).Pairwise (·.seq < ·.seq) ∧
    ∀ q ∈ sent (d.deeds σ n), q.seq < (d.alone σ n).link.connection.nextSeq := by
  induction n with
  | zero => exact ⟨List.Pairwise.nil, fun q hq => by cases hq⟩
  | succ n ih =>
    obtain ⟨hrising, hbelow⟩ := ih
    have hmono : (d.alone σ n).link.connection.nextSeq ≤ (d.alone σ (n + 1)).link.connection.nextSeq :=
      nextSeq_mono (Nat.le_succ n)
    rw [sent_succ]
    cases hq : d.request? σ n with
    | none =>
      rw [Option.toList_none, List.append_nil]
      exact ⟨hrising, fun q hq => Int.lt_of_lt_of_le (hbelow q hq) hmono⟩
    | some q =>
      obtain ⟨y, hsend, hseq⟩ := sends_of_request hq
      obtain ⟨-, hnext, hknown, -⟩ := sent_of_deed hd hsend
      rw [Option.toList_some]
      refine ⟨List.pairwise_append.mpr ⟨hrising, List.pairwise_singleton _ _, fun p hp q' hq' => ?_⟩,
        fun p hp => ?_⟩
      · rw [List.mem_singleton.mp hq', ← hseq, hnext]
        exact hbelow p hp
      · rcases List.mem_append.mp hp with hp | hp
        · exact Int.lt_of_lt_of_le (hbelow p hp) hmono
        · rw [List.mem_singleton.mp hp, ← hseq]
          exact hknown

/-- Two requests of one number are one. -/
theorem sent_once {law : List Deed → Action → Prop} (hd : Mutely law goal me id d) {q q' : Request}
    (hi : (sent (d.deeds σ n))[i]? = some q) (hj : (sent (d.deeds σ n))[j]? = some q')
    (hseq : q.seq = q'.seq) : i = j := by
  have hrising := List.pairwise_iff_getElem.mp (sent_rising hd (σ := σ) n).1
  obtain ⟨hin, rfl⟩ := List.getElem?_eq_some_iff.mp hi
  obtain ⟨hjn, rfl⟩ := List.getElem?_eq_some_iff.mp hj
  rcases Nat.lt_trichotomy i j with hlt | heq | hgt
  · exact absurd hseq (Int.ne_of_lt (hrising i j hin hjn hlt))
  · exact heq
  · exact absurd hseq.symm (Int.ne_of_lt (hrising j i hjn hin hgt))

/-- What is sent at a place is what the plan has there. -/
theorem planned_of_sent {todo : List (String × Value)} {q : Request}
    (hd : Course (Lawful todo) goal me id [] d) (hj : (sent (d.deeds σ n))[j]? = some q) :
    todo[j]? = some q.content := by
  obtain ⟨rest, hrest⟩ := prefix_plan (σ := σ) hd n
  have hmap : ((sent (d.deeds σ n)).map Request.content)[j]? = some q.content := by
    rw [List.getElem?_map, hj]
    rfl
  obtain ⟨hjn, -⟩ := List.getElem?_eq_some_iff.mp hmap
  rw [← hrest, List.getElem?_append_left hjn]
  exact hmap

/-! ### An adapter that refuses one request -/

variable (d σ) in
/-- The adapter refuses the request at the place `i` with a message, and agrees to all others that it
answers. -/
structure Refuses (i : Nat) (message : Option String) : Prop where
  refused : ∀ n q, (sent (d.deeds σ n))[i]? = some q → ∀ m b, (d.alone σ m).Reads (σ m).1 b →
    b.requestSeq = q.seq → b.success = false ∧ b.message = message
  agreed : ∀ n j q, (sent (d.deeds σ n))[j]? = some q → j ≠ i → ∀ m b, (d.alone σ m).Reads (σ m).1 b →
    b.requestSeq = q.seq → b.success = true

variable (d σ) in
/-- While the connection is open, every request is answered before its time is over. -/
def Prompt : Prop :=
  ∀ k n q, k < n → d.request? σ k = some q → (d.alone σ n).link.connection.isClosed = false →
    (∀ m < n, ∀ b, (d.alone σ m).Reads (σ m).1 b → b.requestSeq ≠ q.seq) →
    (d.alone σ n).now < (d.alone σ k).now + d.link.connection.timeout.millis

variable (d σ) in
/-- No answer to the request at a place is ever read. -/
def Unheard (n i : Nat) : Prop :=
  ∀ q, (sent (d.deeds σ n))[i]? = some q → ∀ m b, (d.alone σ m).Reads (σ m).1 b → b.requestSeq ≠ q.seq

/-- A connection on which nothing has been received, with its requests numbered. -/
structure Blank (c : Connection) : Prop where
  numbered : Numbered c
  empty : c.answers = []

variable {message : Option String}

/-- **What the call is told of a request**: that it was refused, if it is the one, that the adapter
agrees, if it is another, or, if there is no answer, that the session has ended or that it is late; then
the connection is closed. -/
theorem Waited.verdict {p : Nat} (h : Waited d σ k l p command y r) (hd : Mutely Patient goal me id d)
    (hblank : Blank d.link.connection) (hrefuses : Refuses d σ i message) (hprompt : Prompt d σ)
    (hclock : ∀ n, (d.alone σ n).now ≤ (d.alone σ (n + 1)).now)
    (hj : (sent (d.deeds σ n))[j]? = some ⟨y.seq, command, v⟩) :
    (j = i ∧ r = .error (.adapterRejected command (message.getD "request failed"))) ∨
    (j ≠ i ∧ ∃ m < p, ∃ b, (d.alone σ m).Reads (σ m).1 b ∧ b.requestSeq = y.seq ∧ r = .ok b) ∨
    (Unheard d σ n j ∧ (d.alone σ p).link.connection.isClosed = true ∧
      (r = .error .sessionTerminated ∨ r = .error (.timeout command d.link.connection.timeout))) := by
  rcases h.told hd hblank.numbered hblank.empty with
    ⟨m, hm, b, hreads, hseq, hr⟩ | ⟨hunread, hover, hr⟩
  · by_cases hji : j = i
    · subst hji
      obtain ⟨hsuccess, hmessage⟩ := hrefuses.refused n _ hj m b hreads hseq
      refine .inl ⟨rfl, ?_⟩
      rw [hr, Exchange.outcome, hsuccess, hmessage]
      rfl
    · have hsuccess := hrefuses.agreed n j _ hj hji m b hreads hseq
      refine .inr (.inl ⟨hji, m, hm, b, hreads, hseq, ?_⟩)
      rw [hr, Exchange.outcome, hsuccess]
      rfl
  · have hclosed : (d.alone σ p).link.connection.isClosed = true := by
      rcases hover with hclosed | hlate
      · exact hclosed
      · by_contra hopen
        obtain ⟨v', hsend⟩ := h.send
        have hkp : k < p := Nat.lt_trans h.order.1 h.order.2
        have hintime := hprompt k p _ hkp (request_of_deed hsend) (Bool.eq_false_iff.mpr hopen)
          fun m _ b hreads => hunread m b hreads
        have hlook : (d.alone σ k).now ≤ (d.alone σ l).now :=
          monotone_nat_of_le_succ (f := fun n => (d.alone σ n).now) hclock (Nat.le_of_lt h.order.1)
        omega
    refine .inr (.inr ⟨fun q hq m b hreads => ?_, hclosed, hr⟩)
    cases hj.symm.trans hq
    exact hunread m b hreads

/-! ### What a refused handshake comes to -/

variable (d σ) in
/-- What a handshake has come to after `n` beats, whose request at the place `i`, for `command`, the adapter
refuses with a message. -/
inductive RefusalOutcome (timeout : Duration) (i : Nat) (command : String) (message : Option String)
    (n : Nat) : Except DebugError Unit → Prop where
  /-- It fails with the refusal. -/
  | refused :
    RefusalOutcome timeout i command message n
      (.error (.adapterRejected command (message.getD "request failed")))
  /-- The connection has been closed or the session has ended before; unless it is the launch that is
  refused, no refusal is ever read. -/
  | ended (e : DebugError) (k : Nat) (before : k < n)
    (gone : (d.alone σ k).link.connection.isClosed = true ∨ (d.alone σ k).Over)
    (unheard : command = "launch" ∨ Unheard d σ n i)
    (error : e = .sessionTerminated ∨ ∃ q ∈ sent (d.deeds σ n), e = .timeout q.command timeout) :
    RefusalOutcome timeout i command message n (.error e)
  /-- The session was still in its first state when the time since the launch was over; it is the launch
  that is refused, or the request has not been sent. -/
  | unready (k m : Nat) (q : Request) (order : k < m ∧ m < n) (sends : d.request? σ k = some q)
    (launch : q.command = "launch") (late : (d.alone σ k).now + timeout.millis ≤ (d.alone σ m).now)
    (launching : (d.alone σ m).room.state.status.state = .launching)
    (lost : command = "launch" ∨ (sent (d.deeds σ n))[i]? = none) :
    RefusalOutcome timeout i command message n (.error (.timeout "initialized" timeout))
  /-- The adapter has agreed to breakpoints in words that cannot be read; it is the launch that is refused,
  or the request has not been sent. -/
  | garbled (e : DebugError) (m : Nat) (q : Request) (b : Response) (before : m < n)
    (setting : q ∈ sent (d.deeds σ n) ∧ q.command = "setBreakpoints")
    (reads : (d.alone σ m).Reads (σ m).1 b) (same : b.requestSeq = q.seq)
    (unread : (bodyOf "setBreakpoints" b : Except DebugError SetBreakpointsBody) = .error e)
    (lost : command = "launch" ∨ (sent (d.deeds σ n))[i]? = none) :
    RefusalOutcome timeout i command message n (.error e)

/-- A deed by which the call was told of a request, with the request. -/
theorem waited_among (hd : Mutely Patient goal me id d) {x : Exchange}
    (hx : (⟨.response x, r⟩ : Deed) ∈ d.deeds σ n) :
    ∃ p < n, ∃ (k l : Nat) (command : String) (v : Value) (y : Exchange) (j : Nat),
      Waited d σ k l p command y r ∧ y.seq = x.seq ∧
      (sent (d.deeds σ n))[j]? = some ⟨y.seq, command, v⟩ := by
  obtain ⟨p, hp, hdeed⟩ := mem_deeds.mp hx
  obtain ⟨k, l, command, v, y, hwaited, hseq, hsend⟩ := waited_of_deed hd hdeed
  have hkn : k < n := Nat.lt_trans (Nat.lt_trans hwaited.order.1 hwaited.order.2) hp
  obtain ⟨j, hj⟩ := List.mem_iff_getElem?.mp (mem_sent hkn (request_of_deed hsend))
  exact ⟨p, hp, k, l, command, v, y, j, hwaited, hseq, hj⟩

/-- A request that cannot be sent finds the connection closed. -/
theorem closed_of_unsent (hd : Mutely Patient goal me id d) {e : DebugError}
    (hx : (d.alone σ k).deed? (σ k).1 = some ⟨.send command v, .error e⟩) :
    e = .sessionTerminated ∧ (d.alone σ k).link.connection.isClosed = true := by
  obtain ⟨-, hgot, -⟩ := did_of_deed (hd.after σ k) (σ k).2 hx
  simp only [attempt, Debugger.send] at hgot
  cases hs : (d.alone σ k).link.connection.send command v with
  | ok p => rw [hs] at hgot; cases hgot
  | error e' =>
    rw [hs] at hgot
    cases hgot
    unfold Connection.send at hs
    split at hs
    · next hclosed =>
      cases hs
      exact ⟨rfl, hclosed⟩
    · cases hs

/-- Who waits for the session to leave its first state, and waits too long, sees it there. -/
theorem launching_of_late (hd : Mutely Patient goal me id d) (hkept : Lockstep d.room.state)
    {states : List RunState} {t : Nat} (hstates : ∀ st, st ≠ .launching → st ∈ states)
    (hx : (d.alone σ m).deed? (σ m).1 = some ⟨.await states (some t), none⟩) :
    (d.alone σ m).room.state.status.state = .launching ∧ t ≤ (d.alone σ m).now := by
  obtain ⟨-, hgot, -⟩ := did_of_deed (hd.after σ m) (σ m).2 hx
  simp only [attempt] at hgot
  split at hgot
  · cases hgot
  · next hnot =>
    split at hgot
    · next hlate =>
      refine ⟨?_, by simpa using hlate⟩
      rw [← (lockstep_alone hkept m).published]
      by_contra hother
      exact hnot (hstates _ hother)
    · cases hgot

section

variable {i : Nat} {message : Option String} {timeout : Duration} {e : DebugError}
  {launch : LaunchArguments} {files : List (Path × Lines)} {refused : String} {arguments : Value}
  {goal' : List Deed → Except DebugError Unit → Prop}

/-- A refused request of which the call was told is what the handshake fails with, but for the launch. -/
theorem outcome_of_answered (hd : Mutely Patient goal me id d)
    (hcourse : Course (Lawful (plan launch files)) goal' me id [] d)
    (hblank : Blank d.link.connection) (htimeout : d.link.connection.timeout = timeout)
    (hplan : (plan launch files)[i]? = some (refused, arguments)) (hrefuses : Refuses d σ i message)
    (hprompt : Prompt d σ) (hclock : ∀ n, (d.alone σ n).now ≤ (d.alone σ (n + 1)).now)
    (hf : Fails (d.deeds σ n) e) {q : Request} (hq : (sent (d.deeds σ n))[i]? = some q)
    (hlaunch : refused ≠ "launch") : RefusalOutcome d σ timeout i refused message n (.error e) := by
  have hcontent : (q.command, q.arguments) = (refused, arguments) :=
    Option.some.inj ((planned_of_sent hcourse hq).symm.trans hplan)
  have hcommand : q.command = refused := congrArg Prod.fst hcontent
  obtain ⟨x, r, hx, hxq⟩ := (hf.answered q (List.mem_of_getElem? hq)).resolve_left
    fun hl => hlaunch (hcommand.symm.trans hl)
  obtain ⟨p, hp, k, l, command, v, y, j, hwaited, hyx, hj⟩ := waited_among hd hx
  have hnumber : y.seq = q.seq := hyx.trans hxq
  have hji : j = i := sent_once hd hj hq hnumber
  subst hji
  have hsame : command = refused := by
    cases hj.symm.trans hq
    exact hcommand
  have hsingle {e' : DebugError} (hr : r = .error e') : e' = e := hf.single x e' (hr ▸ hx)
  rcases hwaited.verdict hd hblank hrefuses hprompt hclock hj with
    ⟨-, hr⟩ | ⟨hne, -⟩ | ⟨hunheard, hclosed, hr⟩
  · rw [← hsingle hr, hsame]
    exact .refused
  · exact absurd rfl hne
  · refine .ended e p hp (.inl hclosed) (.inr hunheard) ?_
    rcases hr with hr | hr
    · exact .inl (hsingle hr).symm
    · refine .inr ⟨_, List.mem_of_getElem? hj, ?_⟩
      rw [← hsingle hr, htimeout]

/-- What else a handshake can fail with, where the launch is refused or the request has not been sent. -/
theorem outcome_of_cause (hd : Mutely Patient goal me id d)
    (hcourse : Course (Lawful (plan launch files)) goal' me id [] d)
    (hblank : Blank d.link.connection) (hkept : Lockstep d.room.state)
    (htimeout : d.link.connection.timeout = timeout)
    (hplan : (plan launch files)[i]? = some (refused, arguments)) (hrefuses : Refuses d σ i message)
    (hprompt : Prompt d σ) (hclock : ∀ n, (d.alone σ n).now ≤ (d.alone σ (n + 1)).now)
    (hc : Cause (d.deeds σ n) e) (hlost : refused = "launch" ∨ (sent (d.deeds σ n))[i]? = none) :
    RefusalOutcome d σ timeout i refused message n (.error e) := by
  have hunheard : refused = "launch" ∨ Unheard d σ n i := hlost.imp_right fun hnone q hq => by
    rw [hnone] at hq
    cases hq
  cases hc with
  | exchange x e hx =>
    obtain ⟨p, hp, k, l, command, v, y, j, hwaited, hyx, hj⟩ := waited_among hd hx
    rcases hwaited.verdict hd hblank hrefuses hprompt hclock hj with
      ⟨rfl, hr⟩ | ⟨-, m, -, b, -, -, hr⟩ | ⟨-, hclosed, hr⟩
    · have hcontent : (command, v) = (refused, arguments) :=
        Option.some.inj ((planned_of_sent hcourse hj).symm.trans hplan)
      cases hcontent
      cases hr
      exact .refused
    · cases hr
    · refine .ended e p hp (.inl hclosed) hunheard ?_
      rcases hr with hr | hr
      · cases hr
        exact .inl rfl
      · cases hr
        exact .inr ⟨_, List.mem_of_getElem? hj, by rw [htimeout]⟩
  | unsent command v e hx =>
    obtain ⟨p, hp, hdeed⟩ := mem_deeds.mp hx
    obtain ⟨rfl, hclosed⟩ := closed_of_unsent hd hdeed
    exact .ended _ p hp (.inl hclosed) hunheard (.inl rfl)
  | ended s hs hstate =>
    obtain ⟨p, hp, hdeed⟩ := mem_deeds.mp hs
    obtain ⟨-, hgot, -⟩ := did_of_deed (hd.after σ p) (σ p).2 hdeed
    have hshown : (d.alone σ p).room.state.published = s := by
      simp only [attempt] at hgot
      cases hgot
      rfl
    have hover : (d.alone σ p).Over := by
      rw [Over, ← (lockstep_alone hkept p).published, hshown]
      exact hstate
    exact .ended _ p hp (.inr hover) hunheard (.inl rfl)
  | cut states deadline s hs hstate =>
    obtain ⟨p, hp, hdeed⟩ := mem_deeds.mp hs
    obtain ⟨-, hgot, -⟩ := did_of_deed (hd.after σ p) (σ p).2 hdeed
    have hover : (d.alone σ p).Over := by
      rw [Over, ← (lockstep_alone hkept p).published, ← shown_of_attempt hgot]
      exact hstate
    exact .ended _ p hp (.inr hover) hunheard (.inl rfl)
  | garbled v y x b e hs hx hsame hbody =>
    obtain ⟨k, hk, hsend⟩ := mem_deeds.mp hs
    obtain ⟨p, hp, k', l, command, v', y', j, hwaited, hyx, hj⟩ := waited_among hd hx
    rcases hwaited.verdict hd hblank hrefuses hprompt hclock hj with
      ⟨-, hr⟩ | ⟨-, m, hm, b', hreads, hseq, hr⟩ | ⟨-, -, hr | hr⟩
    · cases hr
    · cases hr
      have hsent := mem_sent hk (request_of_deed hsend)
      exact .garbled e m _ b (Nat.lt_trans hm hp) ⟨hsent, rfl⟩ hreads (hseq.trans (hyx.trans hsame))
        hbody hlost
    · cases hr
    · cases hr
  | unready before rest v y limit states hstates hdeeds =>
    obtain ⟨k, hk, hsend, hsince⟩ := deeds_split hdeeds
    obtain ⟨l, hkl, -, hl⟩ := (hsince ⟨.limit, limit⟩).mp (by simp)
    obtain ⟨m, hkm, hm, hawait⟩ := (hsince ⟨.await states (some limit.1), none⟩).mp (by simp)
    obtain ⟨hlaunching, hlate⟩ := launching_of_late hd hkept hstates hawait
    have hlimit := limit_of_deed hd hl
    have hlook : (d.alone σ k).now ≤ (d.alone σ l).now :=
      monotone_nat_of_le_succ (f := fun n => (d.alone σ n).now) hclock (Nat.le_of_lt hkl)
    rw [hlimit, htimeout] at hlate ⊢
    exact .unready k m _ ⟨hkm, hm⟩ (request_of_deed hsend) rfl
      (Nat.le_trans (Nat.add_le_add_right hlook _) hlate) hlaunching hlost

end

theorem mutely_handshaking (timeout : Duration) (id : SessionId) (attached : Bool)
    (launch : LaunchArguments) (sources : Sources) :
    Mutely Patient (Ends fun _ _ => True) 3 0 (handshaking timeout id attached launch sources) :=
  ⟨fun _ _ => mute_of_patient,
    course_of_obeys timeout id attached (patient_handshake launch sources.files)⟩

/-- A script is launched without breakpoints. -/
def plain : Resumer :=
  handshaking ⟨5000⟩ ⟨1⟩ true
    ⟨"script", "python", "launch", "/work/main.py", "/work", "internalConsole", true, false⟩ Sources.none

/-- The adapter refuses the introduction as soon as it has received it. After the handshake the clock and
the task of the handshake take turns. -/
def introductionRefused : Nat → LoneBeat
  | 0 => ⟨.task 3, rfl⟩
  | 1 => ⟨.other .write, rfl⟩
  | 2 => ⟨.other (.arrive (Frame.spelled (.response ⟨9, 1, false, "initialize", some "no", none⟩))), rfl⟩
  | 3 => ⟨.other .read, rfl⟩
  | 4 => ⟨.task 3, rfl⟩
  | 5 => ⟨.task 3, rfl⟩
  | 6 => ⟨.task 3, rfl⟩
  | n + 7 => if n % 2 = 0 then ⟨.other (.clock n), rfl⟩ else ⟨.task 3, rfl⟩

/-- The answer that is read next. -/
def nextAnswer? (l : Link) : Option Response :=
  match l.inbound.next.1 with
  | some (.message (.response r)) => some r
  | _ => none

theorem nextAnswer?_eq_some {l : Link} {b : Response} :
    nextAnswer? l = some b ↔ l.inbound.next.1 = some (.message (.response b)) := by
  unfold nextAnswer?
  split
  · next r hr => rw [hr]; simp
  · next hno =>
    refine ⟨fun h => (by cases h), fun h => absurd h (hno b)⟩

set_option maxRecDepth 20000 in
/-- In the first beats the introduction is sent and refused, and the handshake fails. -/
theorem introductionRefused_begins :
    ((List.range 7).all fun k =>
      ((plain.request? introductionRefused k).map Request.seq == if k = 0 then some 1 else none) &&
        (plain.alone introductionRefused k).now == 0) = true ∧
    (nextAnswer? (plain.alone introductionRefused 3).link).map
        (fun b => (b.requestSeq, b.success, b.message)) = some (1, false, some "no") ∧
    (plain.alone introductionRefused 3).link.connection.isClosed = false ∧
    1 ∈ (plain.alone introductionRefused 3).link.connection.pending ∧
    (plain.alone introductionRefused 7).finished =
      [(0, .error (.adapterRejected "initialize" "no"))] ∧
    (plain.alone introductionRefused 7).now = 0 := by
  decide +kernel

theorem patient_plain : Mutely Patient (Ends fun _ _ => True) 3 0 plain := mutely_handshaking ..

/-- The only answer that is read is the refusal. -/
theorem reads_introduction {b : Response}
    (h : (plain.alone introductionRefused m).Reads (introductionRefused m).1 b) :
    m = 3 ∧ b.requestSeq = 1 ∧ b.success = false ∧ b.message = some "no" := by
  have hm : m = 3 := by
    have hbeat := h.beat
    unfold introductionRefused at hbeat
    split at hbeat
    · cases hbeat
    · cases hbeat
    · cases hbeat
    · rfl
    · cases hbeat
    · cases hbeat
    · cases hbeat
    · split at hbeat <;> cases hbeat
  subst hm
  obtain ⟨-, hanswer, -⟩ := introductionRefused_begins
  rw [nextAnswer?_eq_some.mpr h.next] at hanswer
  simpa using hanswer

/-- After the handshake only time passes. -/
theorem introduction_over (n : Nat) :
    (plain.alone introductionRefused (n + 7)).finished =
      [(0, .error (.adapterRejected "initialize" "no"))] ∧
    (plain.alone introductionRefused (n + 7)).now ≤ n ∧
    plain.request? introductionRefused (n + 7) = none ∧
    (plain.alone introductionRefused (n + 8)).now =
      if n % 2 = 0 then n else (plain.alone introductionRefused (n + 7)).now := by
  have hstep (n : Nat) (hf : (plain.alone introductionRefused (n + 7)).finished =
      [(0, .error (.adapterRejected "initialize" "no"))]) :
      plain.request? introductionRefused (n + 7) = none ∧
      (plain.alone introductionRefused (n + 8)).finished =
        (plain.alone introductionRefused (n + 7)).finished ∧
      (plain.alone introductionRefused (n + 8)).now =
        if n % 2 = 0 then n else (plain.alone introductionRefused (n + 7)).now := by
    have hcourse := patient_plain.after introductionRefused (n + 7)
    have hne : (plain.alone introductionRefused (n + 7)).finished ≠ [] := by
      rw [hf]
      exact List.cons_ne_nil _ _
    obtain ⟨hsilent, hsame, hidle⟩ :=
      idle_of_finished hcourse hne (introductionRefused (n + 7)).2
    refine ⟨by rw [request?, hsilent]; rfl, hsame, ?_⟩
    show ((plain.alone introductionRefused (n + 7)).beat (introductionRefused (n + 7)).1).now = _
    simp only [introductionRefused]
    split
    · rfl
    · show ((plain.alone introductionRefused (n + 7)).stride 3).now = _
      rw [hidle]
  induction n with
  | zero =>
    obtain ⟨-, -, -, -, hf, hnow⟩ := introductionRefused_begins
    obtain ⟨hrequest, -, hnext⟩ := hstep 0 hf
    exact ⟨hf, Nat.le_of_eq hnow, hrequest, hnext⟩
  | succ n ih =>
    obtain ⟨hf, hle, -, hnow⟩ := ih
    obtain ⟨-, hsame, -⟩ := hstep n hf
    have hf' := hsame.trans hf
    obtain ⟨hrequest, -, hnext⟩ := hstep (n + 1) hf'
    refine ⟨hf', ?_, hrequest, hnext⟩
    show (plain.alone introductionRefused (n + 8)).now ≤ n + 1
    rw [hnow]
    split <;> omega

/-- The only request is the introduction. -/
theorem request_introduction {q : Request} (hq : plain.request? introductionRefused k = some q) :
    k = 0 ∧ q.seq = 1 := by
  rcases Nat.lt_or_ge k 7 with hk | hk
  · have hall := List.all_eq_true.mp introductionRefused_begins.1 k (List.mem_range.mpr hk)
    rw [hq] at hall
    by_cases h0 : k = 0
    · subst h0
      have hfirst : q.seq = 1 ∧ (plain.alone introductionRefused 0).now = 0 := by simpa using hall
      exact ⟨rfl, hfirst.1⟩
    · simp [h0] at hall
  · obtain ⟨n, rfl⟩ := Nat.exists_eq_add_of_le' hk
    rw [(introduction_over n).2.2.1] at hq
    cases hq

theorem sent_introduction {q : Request} (hq : q ∈ sent (plain.deeds introductionRefused n)) :
    q.seq = 1 := by
  obtain ⟨x, hx, hrequest⟩ := List.mem_filterMap.mp hq
  obtain ⟨k, -, hdeed⟩ := mem_deeds.mp hx
  exact (request_introduction (k := k) (Option.bind_eq_some_iff.mpr ⟨x, hdeed, hrequest⟩)).2

theorem clock_introduction (n : Nat) :
    (plain.alone introductionRefused n).now ≤ (plain.alone introductionRefused (n + 1)).now := by
  rcases Nat.lt_or_ge n 7 with hn | hn
  · have hall := List.all_eq_true.mp introductionRefused_begins.1 n (List.mem_range.mpr hn)
    have hnow : (plain.alone introductionRefused n).now = 0 := by
      have hlast := (Bool.and_eq_true_iff.mp hall).2
      simpa using hlast
    rw [hnow]
    exact Nat.zero_le _
  · obtain ⟨k, rfl⟩ := Nat.exists_eq_add_of_le' hn
    obtain ⟨-, hle, -, hnext⟩ := introduction_over k
    show (plain.alone introductionRefused (k + 7)).now ≤ (plain.alone introductionRefused (k + 8)).now
    rw [hnext]
    split
    · exact hle
    · exact Nat.le_refl _

theorem fair_introduction : Fair 3 plain introductionRefused := by
  refine ⟨fun n => ⟨(2 * n + 1) + 7, by omega, ?_⟩, fun t => ⟨2 * t + 8, fun m hm => ?_⟩⟩
  · have hodd : (2 * n + 1) % 2 ≠ 0 := by omega
    simp only [introductionRefused, if_neg hodd]
  · have hset : (plain.alone introductionRefused (2 * t + 8)).now = 2 * t := by
      rw [(introduction_over (2 * t)).2.2.2, if_pos (Nat.mul_mod_right 2 t)]
    have hmono : (plain.alone introductionRefused (2 * t + 8)).now ≤
        (plain.alone introductionRefused m).now :=
      monotone_nat_of_le_succ (f := fun n => (plain.alone introductionRefused n).now)
        clock_introduction hm
    omega

theorem refuses_introduction : Refuses plain introductionRefused 0 (some "no") := by
  refine ⟨fun n q _ m b hreads _ => ?_, fun n j q hj hne => ?_⟩
  · obtain ⟨-, -, hsuccess, hmessage⟩ := reads_introduction hreads
    exact ⟨hsuccess, hmessage⟩
  · exfalso
    obtain ⟨hjn, -⟩ := List.getElem?_eq_some_iff.mp hj
    have hsome : 0 < (sent (plain.deeds introductionRefused n)).length := Nat.zero_lt_of_lt hjn
    have hfirst := List.getElem?_eq_getElem hsome
    refine hne (sent_once patient_plain hj hfirst ?_)
    rw [sent_introduction (List.mem_of_getElem? hj), sent_introduction (List.getElem_mem hsome)]

theorem prompt_introduction : Prompt plain introductionRefused := by
  intro k n q hkn hq _ hunread
  obtain ⟨rfl, hseq⟩ := request_introduction hq
  obtain ⟨hall, hanswer, hopen, hpending, -⟩ := introductionRefused_begins
  have hn : n ≤ 3 := by
    by_contra hlate
    obtain ⟨b, hb, hwhich⟩ := Option.map_eq_some_iff.mp hanswer
    have hnumber : b.requestSeq = 1 := congrArg Prod.fst hwhich
    have hreads : (plain.alone introductionRefused 3).Reads (introductionRefused 3).1 b :=
      ⟨rfl, hopen, nextAnswer?_eq_some.mp hb, hnumber ▸ hpending⟩
    exact hunread 3 (Nat.lt_of_not_le hlate) b hreads (hnumber.trans hseq.symm)
  have hnow : (plain.alone introductionRefused n).now = 0 := by
    have hn' := List.all_eq_true.mp hall n (List.mem_range.mpr (by omega))
    have hlast := (Bool.and_eq_true_iff.mp hn').2
    simpa using hlast
  have htimeout : plain.link.connection.timeout = ⟨5000⟩ := by
    obtain ⟨schedule, log, hd⟩ := handshaking_eq ⟨5000⟩ ⟨1⟩ true
      ⟨"script", "python", "launch", "/work/main.py", "/work", "internalConsole", true, false⟩
      Sources.none
    rw [plain, hd]
    rfl
  rw [hnow, htimeout]
  exact Nat.lt_add_left _ (by decide)

/-- The adapter agrees to a request. -/
def agreement (seq : Int) (command : String) : Message := .response ⟨9, seq, true, command, none, none⟩

/-- A script with a breakpoint is launched, to which the adapter does not agree, at once when it has agreed to
the introduction. After that it sends more. -/
def launchRefused (more : List Message) : Resumer :=
  let launched : Resumer := handshaking ⟨5000⟩ ⟨1⟩ true
    ⟨"script", "python", "launch", "/work/main.py", "/work", "internalConsole", true, false⟩
    (Sources.none.withBreakpoint ⟨"/work/main.py"⟩ 3)
  ([agreement 1 "initialize", .response ⟨9, 2, false, "launch", some "no such program", none⟩] ++
    more).foldl hear launched.settle

set_option maxRecDepth 20000 in
example : (launchRefused [.event ⟨9, "initialized", none⟩, agreement 3 "setBreakpoints",
    agreement 4 "configurationDone"]).finished =
      [(0, .error (.adapterRejected "launch" "no such program"))] := by
  rw [launchRefused, hear_eq_spelled]
  decide +kernel

end Debugger
end DebugHost
