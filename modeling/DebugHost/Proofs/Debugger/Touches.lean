import DebugHost.Proofs.Debugger.Crowd

/-! # What happenings touch

Room and link change in four ways: a task does an action or begins to wait, the session takes an input,
or something comes from outside (`Crowd.touches`). The record of breakpoints and the queue for it are a
matter of the tasks that lock and unlock it (`keeping_attempt`), the tree is one of the calls that inspect and
of the session (`tree_attempt`), and the requests of a connection go on as those of any connection do
(`Crowd.evolves`). -/

namespace DebugHost

open DebugHost.Session DebugHost.Script
open DebugHost.Traffic (requests)

variable {ρ : Type}

/-- The record of breakpoints, who has it and who waits for it. -/
def Session.Room.keeping (r : Room) : BreakpointSet × Option Nat × List Nat :=
  (r.breakpoints, r.holder, r.queue)

namespace Debugger

/-! ### The session -/

/-- What the session does when it is its turn. -/
inductive Attends (d d' : Debugger ρ) : Prop where
  | leaves (ended : d.Over) (after : d' = d.leave)
  | rests (going : ¬ d.Over) (nothing : d.room.next = none) (after : d' = d)
  | takes (i : Input) (room : Room) (going : ¬ d.Over) (next : d.room.next = some (i, room))
    (after : d' = ({ d with room := room } : Debugger ρ).takeInput i)

theorem attends (d : Debugger ρ) : d.Attends d.attend := by
  unfold attend
  split
  · next ho => exact .leaves ho rfl
  · next ho =>
    split
    · next hn => exact .rests ho hn rfl
    · next i room hn => exact .takes i room ho hn rfl

/-- An input that the session takes from its queues is handled as `State.step` has it. -/
theorem handles_next {d : Debugger ρ} {i : Input} {room : Room} (hn : d.room.next = some (i, room))
    (ho : ¬ d.Over) :
    ∃ o, Handles d.room.state d.link.connection i o ∧
      (({ d with room := room } : Debugger ρ).takeInput i).room.state = o.state ∧
      (({ d with room := room } : Debugger ρ).takeInput i).link =
        { d.link with connection := o.connection } := by
  obtain ⟨hs, hl, -⟩ := takeInput_keeps ({ d with room := room } : Debugger ρ) i
  have hstate : room.state = d.room.state := (next_keeps hn).1
  refine ⟨d.room.state.step d.link.connection i, State.handles_step _ ho i, ?_, ?_⟩
  · rw [hs, hstate]
  · rw [hl, hstate]

/-! ### The record of breakpoints -/

/-- Only who locks or unlocks the record of breakpoints touches it. -/
theorem keeping_attempt (d : Debugger ρ) (me : Nat) {a : Action} (hl : a ≠ .lock)
    (hu : ∀ s, a ≠ .unlock s) : (d.attempt me a).1.room.keeping = d.room.keeping := by
  cases a with
  | lock => exact absurd rfl hl
  | unlock s => exact absurd rfl (hu s)
  | send command arguments => simp only [attempt, Debugger.send]; split <;> rfl
  | response x => simp only [attempt]; split <;> rfl
  | post c => simp only [attempt, post]; split <;> rfl
  | order o => simp only [attempt]; split <;> rfl
  | outcome ticket => simp only [attempt]; split <;> rfl
  | await states deadline =>
    simp only [attempt]
    split
    · rfl
    · split <;> rfl
  | acquire k => simp only [attempt]; split <;> rfl
  | deliver k r =>
    simp only [attempt]
    rcases d.room.state.tree.deliver k r with ⟨v, tree, woken⟩
    have hroom := (foldl_signal (d.withTree tree) .slot woken).1
    simp only [hroom]
    rfl
  | _ => rfl

theorem keeping_effects (d : Debugger ρ) (es : List Effect) :
    (es.foldl effect d).room.keeping = d.room.keeping := by
  induction es generalizing d with
  | nil => rfl
  | cons e es ih =>
    rw [List.foldl_cons, ih]
    cases e <;> rfl

theorem keeping_settle (r : Room) (ts : List Nat) :
    (ts.foldl (fun r t => r.settle t none) r).keeping = r.keeping := by
  rw [settle_all]
  rfl

theorem keeping_next {r room : Room} {i : Input} (h : r.next = some (i, room)) :
    room.keeping = r.keeping := by
  unfold Room.next at h
  split at h
  · cases h; rfl
  · cases h; rfl
  · split at h
    · cases h; rfl
    · split at h
      · cases h
      · cases h; rfl

theorem keeping_attend (d : Debugger ρ) : d.attend.room.keeping = d.room.keeping := by
  cases attends d with
  | leaves ho hd =>
    rw [hd]
    unfold leave Room.leave
    simp only
    rw [(foldl_signal _ .outcome _).1]
    exact keeping_settle _ _
  | rests ho hn hd => rw [hd]
  | takes i room ho hn hd =>
    rw [hd]
    have hstepped : (({ d with room := room } : Debugger ρ).stepped i).room.keeping = room.keeping := rfl
    exact ((keeping_effects _ _).trans hstepped).trans (keeping_next hn)

/-! ### The tree -/

/-- Whether an action is a step of an inspection. -/
def inspects : Action → Bool
  | .join _ => true
  | .acquire _ => true
  | .deliver .. => true
  | _ => false

/-- Only who inspects touches the tree. -/
theorem tree_attempt (d : Debugger ρ) (me : Nat) {a : Action} (ha : inspects a = false) :
    (d.attempt me a).1.room.state.tree = d.room.state.tree := by
  cases a with
  | join q => cases ha
  | acquire k => cases ha
  | deliver k r => cases ha
  | lock =>
    have h := (lock_keeps d.room me).1
    simp only [attempt]
    split
    · next hr => rw [hr] at h; exact congrArg State.tree h
    · next hr => rw [hr] at h; exact congrArg State.tree h
  | unlock s =>
    have h := (unlock_keeps d.room s).1
    simp only [attempt]
    split
    · next hr => rw [hr] at h; exact congrArg State.tree h
    · next hr => rw [hr] at h; exact congrArg State.tree h
  | send command arguments => simp only [attempt, Debugger.send]; split <;> rfl
  | response x => simp only [attempt]; split <;> rfl
  | post c => simp only [attempt, post]; split <;> rfl
  | order o => simp only [attempt]; split <;> rfl
  | outcome ticket => simp only [attempt]; split <;> rfl
  | await states deadline =>
    simp only [attempt]
    split
    · rfl
    · split <;> rfl
  | _ => rfl

end Debugger

namespace Crowd

open Debugger

variable {fit : Script ρ → Prop} {d d' : Debugger ρ}

/-- What comes from outside touches neither the session nor the record of breakpoints. -/
theorem room_outer (d : Debugger ρ) {m : Debugger.Move ρ} (hm : outer m = true) :
    (d.move m).room.state = d.room.state ∧ (d.move m).room.keeping = d.room.keeping := by
  cases m with
  | act me a =>
    cases a with
    | post c => simp only [move, attempt, post]; split <;> exact ⟨rfl, rfl⟩
    | _ => cases hm
  | read =>
    have h : (d.move .read).room = d.room := afterStep_room d d.link.read
    exact ⟨congrArg Room.state h, congrArg Room.keeping h⟩
  | write =>
    have h : (d.move .write).room = d.room := afterStep_room d d.link.write
    exact ⟨congrArg Room.state h, congrArg Room.keeping h⟩
  | pass =>
    refine ⟨(passReports_keeps d).1, ?_⟩
    simp only [move, passReports]
    split
    · split
      · rfl
      · split <;> rfl
    · rfl
  | pick => cases hm
  | input i => cases hm
  | leave => cases hm
  | feed e => cases hm
  | endFeed => cases hm
  | aside e => cases hm
  | _ => exact ⟨rfl, rfl⟩

/-- How room and link are touched when something happens, where `x?` is who does what. -/
inductive Touches (d d' : Debugger ρ) (x? : Option (Nat × Deed)) : Prop where
  /-- A task does an action. -/
  | acts (me : Nat) (x : Deed) (deed : x? = some (me, x))
    (got : (d.attempt me x.action).2 = .got x.reply)
    (room : d'.room = (d.attempt me x.action).1.room)
    (link : d'.link = (d.attempt me x.action).1.link)
  /-- A task has to wait. -/
  | waits (me : Nat) (t : Task ρ) (a : Action) (next : a.Reply → Task ρ) (ss : List Signal)
    (deadline : Option Nat) (silent : x? = none) (before : d.task? me = some t)
    (action : t.next? = some ⟨a, next⟩) (waits : (d.attempt me a).2 = .wait ss deadline)
    (room : d'.room = (d.attempt me a).1.room) (link : d'.link = (d.attempt me a).1.link)
  /-- The session takes an input or leaves. -/
  | session (silent : x? = none) (after : d' = d.attend)
  /-- Something comes from outside. -/
  | outside (m : Debugger.Move ρ) (silent : x? = none) (may : outer m = true) (after : d' = d.move m)
  /-- Room and link stay as they are. -/
  | idle (silent : x? = none) (room : d'.room = d.room) (link : d'.link = d.link)

theorem touches (d : Debugger ρ) (h : Happening fit) : Touches d (happen d h) (deed? d h) := by
  cases h with
  | task me =>
    show Touches d (d.stride me) ((own? d me).map fun x => (me, x))
    have hgoes := goes d me
    generalize own? d me = x?, d.stride me = d' at hgoes ⊢
    cases hgoes with
    | idle => exact .idle rfl rfl rfl
    | does t x next e ht hn ha =>
      obtain ⟨hgot, hroom, hlink⟩ := attempt_without d me me x.action
      rw [ha] at hgot hroom hlink
      exact .acts me x rfl hgot.symm hroom hlink
    | waits t a next e ss deadline ht hn ha =>
      obtain ⟨hgot, hroom, hlink⟩ := attempt_without d me me a
      rw [ha] at hgot hroom hlink
      exact .waits me t a next ss deadline rfl ht hn hgot.symm hroom hlink
    | ends t told ht ho => exact .idle rfl rfl rfl
  | session => exact .session rfl rfl
  | call id s hs => exact .idle rfl rfl rfl
  | outside m hm => exact .outside m rfl hm rfl
  | lift me => simp only [happen, deed?]; split <;> exact .idle rfl rfl rfl
  | lay me t => simp only [happen, deed?]; split <;> exact .idle rfl rfl rfl
  | aside e => exact .idle rfl rfl rfl

/-- What a deed comes to, and what it makes of room and link. -/
theorem attempt_of_deed {h : Happening fit} {me : Nat} {x : Deed} (hx : deed? d h = some (me, x)) :
    (d.attempt me x.action).2 = .got x.reply ∧
    (happen d h).room = (d.attempt me x.action).1.room ∧
    (happen d h).link = (d.attempt me x.action).1.link := by
  obtain ⟨-, t, next, e, -, -, ha, hd⟩ := acts_of_deed hx
  obtain ⟨hgot, hroom, hlink⟩ := attempt_without d me me x.action
  rw [ha] at hgot hroom hlink
  rw [hd]
  exact ⟨hgot.symm, hroom, hlink⟩

/-! ### Requests and their answers -/

/-- When something happens, the reader takes the answer `r` to a request that is waited for. -/
structure Heard (d : Debugger ρ) (h : Happening fit) (r : Response) : Prop where
  reads : ∃ may, h = .outside .read may
  opened : d.link.connection.isClosed = false
  next : d.link.inbound.next.1 = some (.message (.response r))
  expected : r.requestSeq ∈ d.link.connection.pending

theorem evolves_outer (d : Debugger ρ) {m : Debugger.Move ρ} (hm : outer m = true) {h : Happening fit}
    (hh : ∃ may, h = .outside m may) :
    Evolves d.link.connection (Heard d h) (fun _ => True) (d.move m).link.connection := by
  have hforeign (hf : m.foreign = true) (hr : m ≠ .read) :
      Evolves d.link.connection (Heard d h) (fun _ => True) (d.move m).link.connection :=
    (evolves_move d hf).mono (fun r h => by cases h.beat; exact absurd rfl hr) fun _ _ => trivial
  cases m with
  | act me a =>
    cases a with
    | post c =>
      cases c with
      | exited e => exact hforeign rfl (by simp)
      | _ => cases hm
    | _ => cases hm
  | read =>
    simp only [move, afterStep_link]
    exact (evolves_read d).mono (fun r h => ⟨hh, h.opened, h.next, h.expected⟩) fun _ _ => trivial
  | pick => cases hm
  | input i => cases hm
  | leave => cases hm
  | feed e => cases hm
  | endFeed => cases hm
  | aside e => cases hm
  | _ => exact hforeign rfl (by simp)

/-- **What happens to requests.** -/
theorem evolves (d : Debugger ρ) (h : Happening fit) :
    Evolves d.link.connection (Heard d h) (fun _ => True) (happen d h).link.connection := by
  cases h with
  | outside m hm => exact evolves_outer d hm ⟨hm, rfl⟩
  | task me =>
    have h : Evolves d.link.connection (fun _ => False) (d.Takes (.task me)) (d.stride me).link.connection :=
      evolves_stride d me
    exact h.mono (fun _ h => h.elim) fun _ _ => trivial
  | session => exact evolves_attend d
  | call id s hs => exact .of_same rfl rfl rfl
  | lift me => simp only [happen]; split <;> exact .of_same rfl rfl rfl
  | lay me t => simp only [happen]; split <;> exact .of_same rfl rfl rfl
  | aside e => exact .of_same rfl rfl rfl

/-- A request that is sent takes the next number. -/
theorem send_got {d : Debugger ρ} {me : Nat} {command : String} {v : Json.Value} {x : Exchange}
    (h : (d.attempt me (.send command v)).2 = .got (.ok x)) :
    x.seq = d.link.connection.nextSeq ∧
    (d.attempt me (.send command v)).1.link.connection.nextSeq = d.link.connection.nextSeq + 1 := by
  simp only [attempt, Debugger.send] at h ⊢
  cases hs : d.link.connection.send command v with
  | error e => rw [hs] at h; cases h
  | ok p =>
    obtain ⟨seq, c⟩ := p
    rw [hs] at h
    unfold Connection.send at hs
    split at hs
    · cases hs
    · cases hs
      cases h
      exact ⟨rfl, rfl⟩

variable {σ : Nat → Happening fit} {n : Nat}

theorem numbered (h : Numbered d.link.connection) (σ : Nat → Happening fit) (n : Nat) :
    Numbered (after d σ n).link.connection := by
  induction n with
  | zero => exact h
  | succ n ih => exact (evolves _ (σ n)).numbered ih

theorem nextSeq_mono {m : Nat} (hmn : m ≤ n) :
    (after d σ m).link.connection.nextSeq ≤ (after d σ n).link.connection.nextSeq := by
  induction hmn with
  | refl => exact Int.le_refl _
  | @step k _ ih => exact Int.le_trans ih (evolves _ (σ k)).nextSeq_le

/-- An answer that was not there from the beginning has been heard. -/
theorem heard_of_answer {a : Int × Response} (ha : a ∈ (after d σ n).link.connection.answers) :
    a ∈ d.link.connection.answers ∨ ∃ m < n, Heard (after d σ m) (σ m) a.2 ∧ a.2.requestSeq = a.1 := by
  induction n with
  | zero => exact .inl ha
  | succ n ih =>
    have hlater (h : a ∈ (after d σ n).link.connection.answers) :
        a ∈ d.link.connection.answers ∨
          ∃ m < n + 1, Heard (after d σ m) (σ m) a.2 ∧ a.2.requestSeq = a.1 :=
      (ih h).imp_right fun ⟨m, hm, hr⟩ => ⟨m, Nat.lt_succ_of_lt hm, hr⟩
    cases evolves (after d σ n) (σ n) with
    | goesOn _ hs => exact hlater (hs ▸ ha)
    | read r may _ hs =>
      rw [after_succ, hs] at ha
      rcases List.mem_append.mp ha with h | h
      · exact hlater h
      · rw [List.mem_singleton.mp h]
        exact .inr ⟨n, Nat.lt_succ_self n, may, rfl⟩
    | taken seq _ _ hs =>
      rw [after_succ, hs] at ha
      exact hlater (List.mem_filter.mp ha).1

/-- An answer that is told has been heard, unless it was there from the beginning. -/
theorem heard_of_told {me : Nat} {x : Exchange} {r : Response}
    (h0 : d.link.connection.answers = [])
    (h : ((after d σ n).attempt me (.response x)).2 = .got (.ok r)) :
    r.requestSeq = x.seq ∧ r.success = true ∧ ∃ m < n, Heard (after d σ m) (σ m) r := by
  have hresult : x.result? (after d σ n).link.connection (after d σ n).now = some (.ok r) := by
    simp only [attempt] at h
    unfold Exchange.result?
    cases hs : x.standing (after d σ n).link.connection (after d σ n).now with
    | waiting => rw [hs] at h; cases h
    | late => rw [hs] at h; cases h
    | _ => rw [hs] at h; cases h; rfl
  obtain ⟨hanswer, hsuccess⟩ := answer_of_ok hresult
  rcases heard_of_answer hanswer with hno | ⟨m, hm, hheard, hseq⟩
  · rw [h0] at hno; cases hno
  · exact ⟨hseq, hsuccess, m, hm, hheard⟩

theorem numbered_opened (timeout : Duration) (id : SessionId) :
    Numbered (opened timeout id : Debugger ρ).link.connection := by
  rw [opened_eq]
  exact ⟨fun _ h => (by cases h), fun _ h => (by cases h), fun _ h => (by cases h)⟩

/-- The answer to a request is read after the request was sent. -/
theorem sent_before_answer (h0 : Numbered d.link.connection) {i m who : Nat} {command : String}
    {v : Json.Value} {y : Exchange} {r : Response}
    (hx : deed? (after d σ i) (σ i) = some (who, ⟨.send command v, .ok y⟩))
    (hr : Heard (after d σ m) (σ m) r) (hseq : y.seq = r.requestSeq) : i < m := by
  have hnext := (send_got (attempt_of_deed hx).1).1
  by_contra hle
  have hmono := nextSeq_mono (d := d) (σ := σ) (Nat.le_of_not_lt hle)
  have hlt := (numbered h0 σ m).pending _ hr.expected
  omega

/-! ### Requests on their way -/

/-- The session sends nothing but the requests to let a thread go on. -/
theorem conveys_attend {d : Debugger ρ} {rs : List Request} (h : Conveys d.link rs) :
    ∃ q? : Option Request, Conveys d.attend.link (rs ++ q?.toList) ∧
      ∀ q, q? = some q → ∃ kind : StepKind, q.command = kind.command := by
  have hsame {d' : Debugger ρ} (hl : d'.link = d.link) : ∃ q? : Option Request,
      Conveys d'.link (rs ++ q?.toList) ∧
        ∀ q, q? = some q → ∃ kind : StepKind, q.command = kind.command := by
    refine ⟨none, ?_, fun q hq => by cases hq⟩
    rw [hl, Option.toList_none, List.append_nil]
    exact h
  cases attends d with
  | leaves ho hd => rw [hd]; exact hsame (leave_keeps d).2.1
  | rests ho hn hd => rw [hd]; exact hsame rfl
  | takes i room ho hn hd =>
    obtain ⟨o, hi, -, hl⟩ := handles_next hn ho
    rw [← hd] at hl
    cases hi with
    | stays _ _ hc => exact hsame (hl.trans (by rw [hc]))
    | enters _ _ _ _ _ hc => exact hsame (hl.trans (by rw [hc]))
    | resumes kind thread ticket _ _ hopen _ hc =>
      refine ⟨some ⟨d.link.connection.nextSeq, kind.command,
        (Json.Typed.write (ThreadArguments.mk thread)).canonical⟩, ?_, fun q hq => ⟨kind, ?_⟩⟩
      · rw [hl, hc, Option.toList_some]
        exact h.send (send_open hopen kind thread)
      · cases hq
        rfl
    | ends _ _ _ _ hc =>
      refine ⟨none, ?_, fun q hq => by cases hq⟩
      rw [Option.toList_none, List.append_nil]
      refine h.of_closed (by rw [hl]) ?_
      rw [hl, hc]
      exact isClosed_close _ .shutdown

/-- What comes from outside sends no requests. -/
theorem conveys_outer {d : Debugger ρ} {m : Debugger.Move ρ} (hm : outer m = true) {rs : List Request}
    (h : Conveys d.link rs) : Conveys (d.move m).link rs := by
  cases m with
  | act me a =>
    cases a with
    | post c => simp only [move, attempt, post]; split <;> exact h
    | _ => cases hm
  | read => simp only [move, afterStep_link]; exact h.read
  | write => simp only [move, afterStep_link]; exact h.write
  | pass =>
    have hc : d.passReports.link.connection = d.link.connection := (passReports_keeps d).2.2
    exact h.of_same (passReports_breakpoints d).2 fun ho =>
      ⟨hc ▸ ho, congrArg (fun c => requests c.queue) hc⟩
  | pick => cases hm
  | input i => cases hm
  | leave => cases hm
  | feed e => cases hm
  | endFeed => cases hm
  | aside e => cases hm
  | shutdown => exact h.of_closed rfl (isClosed_close _ .shutdown)
  | _ => exact h.of_same rfl fun ho => ⟨ho, rfl⟩

/-- The requests that go out, those of a kind that the session does not send in the order in which tasks
have sent them. -/
theorem conveys_gathered {keep : Request → Bool}
    (hkeep : ∀ (q : Request) (kind : StepKind), q.command = kind.command → keep q = false)
    (h0 : Conveys d.link []) (σ : Nat → Happening fit) (n : Nat) :
    ∃ rs, Conveys (after d σ n).link rs ∧
      rs.filter keep = gathered d σ (fun _ _ x => x.request?.filter keep) n := by
  induction n with
  | zero => exact ⟨[], h0, rfl⟩
  | succ n ih =>
    obtain ⟨rs, hrs, hfilter⟩ := ih
    have hsilent (hx : deed? (after d σ n) (σ n) = none) :
        gathered d σ (fun _ _ x => x.request?.filter keep) (n + 1) =
          gathered d σ (fun _ _ x => x.request?.filter keep) n := gathered_silent hx
    cases touches (after d σ n) (σ n) with
    | acts me x hx hgot hroom hlink =>
      have hfollows := (follows_attempt (after d σ n) me x.action).conveys rs hrs
      rw [hgot, ← hlink] at hfollows
      refine ⟨_, hfollows, ?_⟩
      rw [gathered_deed hx, List.filter_append, hfilter]
      congr 1
      exact (Option.toList_filter ..).symm
    | waits me t a next ss deadline hx ht hn hwaits hroom hlink =>
      have hfollows := (follows_attempt (after d σ n) me a).conveys rs hrs
      rw [hwaits, ← hlink] at hfollows
      refine ⟨_, hfollows, ?_⟩
      rw [hsilent hx, ← hfilter]
      exact congrArg (List.filter keep) (List.append_nil rs)
    | session hx hd =>
      obtain ⟨q?, hq, hkind⟩ := conveys_attend hrs
      refine ⟨rs ++ q?.toList, by rw [after_succ, hd]; exact hq, ?_⟩
      rw [hsilent hx, List.filter_append, hfilter]
      cases hq? : q? with
      | none => exact List.append_nil _
      | some q =>
        obtain ⟨kind, hcommand⟩ := hkind q hq?
        simp [hkeep q kind hcommand]
    | outside m hx hm hd =>
      exact ⟨rs, by rw [after_succ, hd]; exact conveys_outer hm hrs, by rw [hsilent hx, hfilter]⟩
    | idle hx hroom hlink =>
      exact ⟨rs, by rw [after_succ, hlink]; exact hrs, by rw [hsilent hx, hfilter]⟩

/-- On a new connection nothing has been sent. -/
theorem conveys_opened (timeout : Duration) (id : SessionId) :
    Conveys (opened timeout id : Debugger ρ).link [] := by
  rw [opened_eq]
  exact ⟨List.prefix_rfl, fun _ => rfl⟩

end Crowd
end DebugHost
